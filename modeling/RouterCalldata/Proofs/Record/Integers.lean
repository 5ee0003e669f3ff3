import Mathlib.Data.Nat.Digits.Defs
import RouterCalldata.Proofs.Record.Acceptance
import RouterCalldata.Proofs.Record.TextForm

/-!
# The readers of integers agree

There are three ways to read an integer.  One takes a whole word, one takes a range of up to a word
and fills it up with zero bytes, and the one for positions compares the high bytes of a word with
zero and puts the number together from the low ones.  The first two give a text, the last a number.

All three denote what bytes denote in big-endian arithmetic, and a text is the one numeral of that
number.  So texts are equal exactly if the numbers are, which is how two texts, or a text and a
position, are compared below.  What a range leaves out of a word is the high part of the number, and
this is zero exactly if its bytes are.

## Main definitions

* `Bytes.placeValue`: the number that bytes denote in big-endian arithmetic;
* `IsNumeralOf`: the canonical decimal numeral of a number.

## Main results

* `isNumeralOf_iff`: a number has one canonical numeral, the one that is written;
* `IsNumeralOf.toNat?_eq`: it is read back as the number;
* `Bytes.toNat_eq_placeValue`: bytes are read as big-endian numbers;
* `Bytes.readUintRange_eq_ok`, `Bytes.readUint_eq_readUintRange`, `Bytes.readUintRange_low_eq_iff`:
  ranges and words;
* `Bytes.readOffset_eq_ok_iff_numeral`, `Bytes.readOffset_of_le`: words and positions;
* `Bytes.integer_readers_agree`: all of these.
-/

namespace RouterCalldata

open Decoded

/-! ## Canonical numerals -/

/-- The canonical decimal numeral of a number: digits only, with no zero in front unless it
stands alone, and they denote the number. -/
structure IsNumeralOf (n : Nat) (text : String) : Prop extends IsNumeral (n + 1) text where
  value_eq : Nat.ofDigitChars 10 text.toList 0 = n

theorem exists_digitChar_eq {c : Char} (h : c.isDigit) : ∃ d < 10, d.digitChar = c := by
  have hc : c.toNat = c.val.toNat := rfl
  simp [Char.isDigit, UInt32.le_iff_toNat_le] at h
  have hchar : ∀ d < 10, d.digitChar = Char.ofNat (d + 48) := by decide
  refine ⟨c.toNat - 48, by omega, ?_⟩
  rw [hchar _ (by omega), Nat.sub_add_cancel (by omega), Char.ofNat_toNat]

/-- **Digits are those of the number that they denote**, if no zero stands in front.  The
induction is on the digits from the last one on: without it they denote the tenth part. -/
theorem toDigits_ofDigitChars {digits : List Char} (hne : digits ≠ [])
    (hdigit : ∀ c ∈ digits, c.isDigit) (hhead : digits.head? = some '0' → digits = ['0']) :
    Nat.toDigits 10 (Nat.ofDigitChars 10 digits 0) = digits := by
  induction digits using List.reverseRecOn with
  | nil => exact absurd rfl hne
  | append_singleton front c ih =>
    obtain ⟨d, hd, rfl⟩ := exists_digitChar_eq (hdigit c (by simp))
    have hvalue : Nat.ofDigitChars 10 (front ++ [d.digitChar]) 0 =
        10 * Nat.ofDigitChars 10 front 0 + d := by
      rw [Nat.ofDigitChars_append, Nat.ofDigitChars_cons_digitChar_of_lt_ten hd]
      rfl
    rw [hvalue]
    by_cases hfront : front = []
    · subst hfront
      rw [Nat.ofDigitChars_nil, Nat.mul_zero, Nat.zero_add, List.nil_append,
        Nat.toDigits_of_lt_base hd]
    · have hhead' : front.head? ≠ some '0' := by
        intro h
        have hall := hhead (by rwa [List.head?_append_of_ne_nil _ hfront])
        rw [List.append_eq_singleton_iff] at hall
        rcases hall with ⟨hnil, -⟩ | ⟨-, hnil⟩
        · exact hfront hnil
        · exact List.cons_ne_nil _ _ hnil
      have hrest := ih hfront (fun c hc => hdigit c (List.mem_append_left _ hc))
        fun h => absurd h hhead'
      have hpos : 0 < Nat.ofDigitChars 10 front 0 := by
        rw [Nat.pos_iff_ne_zero]
        intro hzero
        rw [hzero] at hrest
        exact hhead' (by rw [← hrest]; rfl)
      rw [← Nat.toDigits_append_toDigits (by decide) hpos hd, hrest,
        Nat.toDigits_of_lt_base hd]

/-- **A number has one canonical numeral**, the one that is written for it. -/
theorem isNumeralOf_iff {n : Nat} {text : String} : IsNumeralOf n text ↔ text = Nat.repr n := by
  constructor
  · intro h
    have hne : text.toList ≠ [] := by
      rw [ne_eq, String.toList_eq_nil_iff]
      exact h.ne_empty
    have hdigits := toDigits_ofDigitChars hne h.isDigit fun hhead => by
      rw [h.eq_zero_of_head hhead]
      rfl
    rw [h.value_eq] at hdigits
    rw [Nat.repr, hdigits, String.ofList_toList]
  · rintro rfl
    refine ⟨isNumeral_repr (Nat.lt_succ_self n), ?_⟩
    rw [Nat.repr, String.toList_ofList, Nat.ofDigitChars_toDigits (by decide) (by decide)]

theorem isNumeralOf_repr (n : Nat) : IsNumeralOf n (Nat.repr n) := isNumeralOf_iff.mpr rfl

theorem isNumeralOf_repr_iff {m n : Nat} : IsNumeralOf n (Nat.repr m) ↔ m = n := by
  constructor
  · intro h
    exact (isNumeralOf_repr m).value_eq.symm.trans h.value_eq
  · rintro rfl
    exact isNumeralOf_repr m

theorem isDigit_ne_underscore {c : Char} (h : c.isDigit) : c ≠ '_' := by
  rintro rfl
  exact absurd h (by decide)

/-- A text of digits is accepted as a number.  The induction is on the characters behind the
first one, and what is asked of them does not depend on which digit stands in front. -/
theorem isNat_of_isDigit {text : String} (hne : text ≠ "") (hdigit : ∀ c ∈ text.toList, c.isDigit) :
    text.isNat = true := by
  unfold String.isNat String.Slice.isNat
  simp only [String.Slice.forIn_eq_forIn_toList, String.copy_toSlice]
  obtain ⟨c, rest, htext⟩ := List.exists_cons_of_ne_nil (mt String.toList_eq_nil_iff.mp hne)
  rw [htext] at hdigit ⊢
  clear htext
  induction rest generalizing c with
  | nil =>
    have hc := hdigit c List.mem_cons_self
    simp [hc, isDigit_ne_underscore hc]
  | cons d rest ih =>
    have hc := hdigit c List.mem_cons_self
    have hd := hdigit d (List.mem_cons_of_mem _ List.mem_cons_self)
    have hrest := ih d fun c hc => hdigit c (List.mem_cons_of_mem _ hc)
    simpa [hc, isDigit_ne_underscore hc, hd, isDigit_ne_underscore hd] using hrest

/-- **A numeral is read back as the number that it denotes.** -/
theorem IsNumeralOf.toNat?_eq {n : Nat} {text : String} (h : IsNumeralOf n text) :
    text.toNat? = some n := by
  have hnat : text.toSlice.isNat = true := isNat_of_isDigit h.ne_empty h.isDigit
  rw [String.toNat?, String.Slice.toNat?, if_pos hnat, String.Slice.foldl_eq_foldl_toList,
    String.copy_toSlice, Option.some.injEq, ← h.value_eq, Nat.ofDigitChars_eq_foldl]
  refine List.foldl_ext _ _ _ fun m c hc => ?_
  rw [if_neg (isDigit_ne_underscore (h.isDigit c hc)), Nat.mul_comm]

namespace Bytes

/-! ## Big-endian arithmetic -/

/-- The number whose digits to the base 256 are the bytes, the last byte having the lowest
place. -/
def placeValue (bs : Bytes) : Nat := Nat.ofDigits 256 (bs.reverse.map UInt8.toNat)

/-- **Bytes are read as big-endian numbers.** -/
theorem toNat_eq_placeValue (bs : Bytes) : toNat bs = placeValue bs := by
  induction bs using List.reverseRecOn with
  | nil => rfl
  | append_singleton bs b ih =>
    rw [toNat_concat, ih, placeValue, placeValue, List.reverse_append, List.reverse_singleton,
      List.singleton_append, List.map_cons, Nat.ofDigits_cons, Nat.add_comm]

/-- The high part of a number counts as many places more as the low part has bytes. -/
theorem toNat_append (high low : Bytes) :
    toNat (high ++ low) = toNat low + 256 ^ low.length * toNat high := by
  simp only [toNat_eq_placeValue, placeValue]
  rw [List.reverse_append, List.map_append, Nat.ofDigits_append, List.length_map,
    List.length_reverse]

/-- A number is zero exactly if its bytes are. -/
theorem toNat_eq_zero_iff {bs : Bytes} : toNat bs = 0 ↔ ∀ b ∈ bs, b = 0 := by
  constructor
  · intro h
    have hzeros := bigEndian_toNat bs
    rw [h, bigEndian_zero] at hzeros
    exact (List.eq_replicate_iff.mp hzeros.symm).2
  · intro h
    rw [List.eq_replicate_iff.mpr ⟨rfl, h⟩]
    have hzero := toNat_replicate_append bs.length []
    rwa [List.append_nil] at hzero

variable {buf : Bytes} {offset start len n : Nat}

/-! ## Ranges and words -/

theorem readUintRange_eq_map (hlen : len ≤ wordSize) :
    readUintRange buf start len = (slice buf start len).map decimal := by
  have hnarrow : (Source.uintRange start len).IsNarrow := hlen
  exact Source.read_eq_map hnarrow

/-- **A word is the range of all its bytes**, where the buffer ends too early as well. -/
theorem readUint_eq_readUintRange (buf : Bytes) (offset : Nat) :
    readUint buf offset = readUintRange buf offset wordSize :=
  (readUintRange_eq_map (Nat.le_refl _)).symm

/-- **A range is read as the numeral of the number that its bytes denote.** -/
theorem readUintRange_eq_ok (hfit : buf.length < Offset.limit) (hlen : len ≤ wordSize)
    (hle : start + len ≤ buf.length) :
    readUintRange buf start len = .ok (Nat.repr (toNat (Span.cut ⟨start, len⟩ buf))) := by
  rw [readUintRange_eq_map hlen, slice_eq_ok hfit hle]
  rfl

/-- A word is its high bytes and the low ones behind them. -/
theorem cut_word (hlen : len ≤ wordSize) (buf : Bytes) (offset : Nat) :
    Span.cut ⟨offset, wordSize⟩ buf =
      Span.cut ⟨offset, wordSize - len⟩ buf ++
        Span.cut ⟨offset + (wordSize - len), len⟩ buf := by
  have hlow := Span.drop_cut offset wordSize (wordSize - len) buf
  rw [Nat.sub_sub_self hlen] at hlow
  rw [← hlow, ← Span.take_cut (Nat.sub_le wordSize len), List.take_append_drop]

/-- **The low bytes of a word are read as the word is, exactly if its other bytes are zero.** -/
theorem readUintRange_low_eq_iff (hfit : buf.length < Offset.limit) (hlen : len ≤ wordSize)
    (hle : offset + wordSize ≤ buf.length) :
    readUintRange buf (offset + (wordSize - len)) len = readUint buf offset ↔
      ∀ b ∈ Span.cut ⟨offset, wordSize - len⟩ buf, b = 0 := by
  have hstop : offset + (wordSize - len) + len ≤ buf.length := by omega
  rw [readUint_eq_readUintRange, readUintRange_eq_ok hfit hlen hstop,
    readUintRange_eq_ok hfit (Nat.le_refl _) hle, Except.ok.injEq, ← isNumeralOf_iff,
    isNumeralOf_repr_iff, cut_word hlen, toNat_append, Span.length_cut hstop, ← toNat_eq_zero_iff]
  have hplaces : 0 < 256 ^ len := Nat.pow_pos (by decide)
  rw [left_eq_add, Nat.mul_eq_zero]
  exact or_iff_right (Nat.ne_of_gt hplaces)

/-! ## Words and positions -/

/-- A word is read as a numeral of the number that it denotes. -/
theorem readUint_numeral_iff (hfit : buf.length < Offset.limit) :
    (∃ text, readUint buf offset = .ok text ∧ IsNumeralOf n text) ↔
      buf.numberAt? offset = some n := by
  rw [numberAt?_eq_some_iff, readUint_eq_readUintRange]
  constructor
  · rintro ⟨text, hread, hnumeral⟩
    rw [readUintRange_eq_map (Nat.le_refl _)] at hread
    obtain ⟨bs, hbs, rfl⟩ := map_eq_ok_iff.mp hread
    obtain ⟨hle, rfl⟩ := (slice_eq_ok_iff hfit).mp hbs
    exact ⟨hle, isNumeralOf_repr_iff.mp hnumeral⟩
  · rintro ⟨hle, rfl⟩
    exact ⟨_, readUintRange_eq_ok hfit (Nat.le_refl _) hle, isNumeralOf_repr _⟩

/-- **A word is read as a position exactly if it is read as a numeral of 64 bits**, and as
the number of this numeral. -/
theorem readOffset_eq_ok_iff_numeral (hfit : buf.length < Offset.limit) :
    readOffset buf offset = .ok n ↔
      (∃ text, readUint buf offset = .ok text ∧ IsNumeralOf n text) ∧ n < Offset.limit := by
  rw [readUint_numeral_iff hfit]
  exact readOffset_eq_ok_iff hfit

/-- **A word of more than 64 bits is no position.** -/
theorem readOffset_of_le (hfit : buf.length < Offset.limit)
    (hnumber : buf.numberAt? offset = some n) (hle : Offset.limit ≤ n) :
    readOffset buf offset = .error (.outOfBounds (.wideOffset offset)) := by
  obtain ⟨hend, -⟩ := numberAt?_eq_some_iff.mp hnumber
  have hword : word buf offset = .ok (Span.cut ⟨offset, wordSize⟩ buf) :=
    (slice_eq_ok_iff hfit).mpr ⟨hend, rfl⟩
  cases hread : readOffset buf offset with
  | ok m =>
    obtain ⟨hm, hlt⟩ := (readOffset_eq_ok_iff hfit).mp hread
    obtain rfl := Option.some.inj (hm.symm.trans hnumber)
    exact absurd hlt (Nat.not_lt.mpr hle)
  | error e =>
    rw [readOffset, hword, ok_bind] at hread
    split at hread
    · exact hread.symm
    · cases hread

/-! ## Agreement -/

/-- **The readers of integers agree with each other and with big-endian arithmetic.**  A range
of up to a word is read as the canonical numeral of the number that its bytes denote;
a word is the range of all its bytes; the low bytes of a word are read like the word exactly
if its other bytes are zero; and a word is read as the position `n` exactly if its numeral
is that of `n` and `n` has 64 bits, and is refused as too wide if it denotes
more. -/
theorem integer_readers_agree (hfit : buf.length < Offset.limit) :
    (∀ start len, len ≤ wordSize → start + len ≤ buf.length →
      ∃ text, readUintRange buf start len = .ok text ∧
        IsNumeralOf (placeValue (Span.cut ⟨start, len⟩ buf)) text ∧
        text.toNat? = some (placeValue (Span.cut ⟨start, len⟩ buf))) ∧
    (∀ offset, readUint buf offset = readUintRange buf offset wordSize) ∧
    (∀ offset len, len ≤ wordSize → offset + wordSize ≤ buf.length →
      (readUintRange buf (offset + (wordSize - len)) len = readUint buf offset ↔
        ∀ b ∈ Span.cut ⟨offset, wordSize - len⟩ buf, b = 0)) ∧
    (∀ offset n, readOffset buf offset = .ok n ↔
      (∃ text, readUint buf offset = .ok text ∧ IsNumeralOf n text) ∧ n < Offset.limit) ∧
    ∀ offset n, (∃ text, readUint buf offset = .ok text ∧ IsNumeralOf n text) →
      Offset.limit ≤ n → readOffset buf offset = .error (.outOfBounds (.wideOffset offset)) := by
  refine ⟨?_, readUint_eq_readUintRange buf, fun offset len => readUintRange_low_eq_iff hfit,
    fun offset n => readOffset_eq_ok_iff_numeral hfit, fun offset n hread hle => ?_⟩
  · intro start len hlen hle
    rw [← toNat_eq_placeValue]
    exact ⟨_, readUintRange_eq_ok hfit hlen hle, isNumeralOf_repr _, (isNumeralOf_repr _).toNat?_eq⟩
  · exact readOffset_of_le hfit ((readUint_numeral_iff hfit).mp hread) hle

/-- Two words, the first of which is too wide for a position by one bit. -/
def wideAndNarrow : Bytes := [2 ^ 64, 5].flatMap fun n => (Word.ofNat n).bytes

/-- Nine bytes of the wide word, no bytes at all, the low byte of the narrow word, and the words as
positions. -/
theorem integer_readers_agree_wideAndNarrow :
    wideAndNarrow.length < Offset.limit ∧
      (∃ text, readUintRange wideAndNarrow 23 9 = .ok text ∧ IsNumeralOf (2 ^ 64) text) ∧
      (∃ text, readUintRange wideAndNarrow 64 0 = .ok text ∧ IsNumeralOf 0 text) ∧
      readUint wideAndNarrow 40 = readUintRange wideAndNarrow 40 wordSize ∧
      readUintRange wideAndNarrow 63 1 = readUint wideAndNarrow 32 ∧
      readUintRange wideAndNarrow 24 8 ≠ readUint wideAndNarrow 0 ∧
      readOffset wideAndNarrow 32 = .ok 5 ∧
      readOffset wideAndNarrow 0 = .error (.outOfBounds (.wideOffset 0)) := by
  have hfit : wideAndNarrow.length < Offset.limit := by decide +kernel
  obtain ⟨hrange, hword, hlow, hoffset, hwide⟩ := integer_readers_agree hfit
  obtain ⟨text, htext, hnumeral, -⟩ := hrange 23 9 (by decide) (by decide +kernel)
  obtain ⟨none, hnone, hzero, -⟩ := hrange 64 0 (by decide) (by decide +kernel)
  have hvalue : placeValue (Span.cut ⟨23, 9⟩ wideAndNarrow) = 2 ^ 64 := by decide +kernel
  have hvalue' : placeValue (Span.cut ⟨64, 0⟩ wideAndNarrow) = 0 := by decide +kernel
  rw [hvalue] at hnumeral
  rw [hvalue'] at hzero
  have hfive : readUint wideAndNarrow 32 = .ok "5" := by decide +kernel
  have hall : readUint wideAndNarrow 0 = .ok (Nat.repr (2 ^ 64)) := by decide +kernel
  refine ⟨hfit, ⟨text, htext, hnumeral⟩, ⟨none, hnone, hzero⟩, hword 40,
    (hlow 32 1 (by decide) (by decide +kernel)).mpr (by decide +kernel), ?_,
    (hoffset 32 5).mpr ⟨⟨"5", hfive, isNumeralOf_repr 5⟩, by decide⟩,
    hwide 0 (2 ^ 64) ⟨_, hall, isNumeralOf_repr _⟩ (by decide)⟩
  intro heq
  exact absurd ((hlow 0 8 (by decide) (by decide +kernel)).mp heq) (by decide +kernel)

end Bytes

end RouterCalldata
