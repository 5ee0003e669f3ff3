import RouterCalldata.Proofs.Bytes.HexText
import RouterCalldata.Proofs.Text.LetterCase
import RouterCalldata.Proofs.Text.Trimming

/-!
# Which texts are hex

A user's text is hex if what is left of it, without the blanks around it and without one mark, is an
even number of digits.  A second mark is no digit, and neither is a blank behind the mark.

Digits are counted and looked at as bytes, a text being its characters.  The two differ for the
characters outside ASCII only, which take up several bytes and hold no digit in any of them.  So a
text of digits has as many bytes as characters, and in any other text it is the bytes that are
counted first, and the first byte that is no digit that is told.

## Main definitions

* `IsHexDigit`, `Hex.IsHexByte`: the digits of either letter case, as characters and as bytes;
* `Hex.IsBare`: what is left of a text;
* `Hex.FirstBad`: the first byte that is no digit.

## Main results

* `Hex.decodeFrom_cases`, `Hex.decode_cases`: bytes are read, or refused for one of two reasons;
* `Hex.decode_utf8_ok_iff`, `Hex.decode_utf8_of_lower`: which characters are read, and as what;
* `Hex.isBare_iff`: what is left of a text is what is read of it;
* `Hex.read_grammar`: which texts are read, what they are read as, and how all others are refused.
-/

namespace RouterCalldata

/-! ## Digits -/

/-- A hex digit of either letter case. -/
def IsHexDigit (c : Char) : Prop := c ∈ "0123456789abcdefABCDEF".toList

instance (c : Char) : Decidable (IsHexDigit c) := inferInstanceAs (Decidable (c ∈ _))

/-- A digit is no blank and no letter of a mark, and it is of ASCII. -/
theorem IsHexDigit.cases {c : Char} (h : IsHexDigit c) :
    Text.isBlank c = false ∧ c ≠ 'x' ∧ c ≠ 'X' ∧ c.toNat < 128 := by
  have hall : "0123456789abcdefABCDEF".toList.all fun c =>
      decide (Text.isBlank c = false ∧ c ≠ 'x' ∧ c ≠ 'X' ∧ c.toNat < 128) := by
    decide
  exact of_decide_eq_true (List.all_eq_true.mp hall c h)

/-- What is a digit in lower case is a digit. -/
theorem isHexDigit_of_toLower {c : Char} (h : c.toLower ∈ hexDigits) : IsHexDigit c := by
  have hsmall : c.toNat < 128 := by
    by_contra hge
    rw [toLower_eq_self_of_ge (Nat.not_lt.mp hge)] at h
    have hall : hexDigits.all fun c => decide (c.toNat < 128) := by decide
    exact hge (of_decide_eq_true (List.all_eq_true.mp hall c h))
  have hall : ∀ n < 128, (Char.ofNat n).toLower ∈ hexDigits → IsHexDigit (Char.ofNat n) := by
    decide +kernel
  rw [← Char.ofNat_toNat c] at h ⊢
  exact hall c.toNat hsmall h

namespace Hex

/-- The byte is the code of a digit. -/
def IsHexByte (b : UInt8) : Prop := IsHexDigit (Char.ofNat b.toNat)

instance (b : UInt8) : Decidable (IsHexByte b) := inferInstanceAs (Decidable (IsHexDigit _))

/-- The codes of digits are below 128. -/
theorem IsHexByte.toNat_lt {b : UInt8} (h : IsHexByte b) : b.toNat < 128 := by
  have hall : ∀ n < 256, IsHexByte (UInt8.ofNat n) → n < 128 := by decide +kernel
  apply hall b.toNat b.toNat_lt
  rwa [UInt8.ofNat_toNat]

/-- The character of a code, in lower case. -/
def lowerChar (b : UInt8) : Char := (Char.ofNat b.toNat).toLower

/-- **Bytes with a value are the codes of digits**, and the value is that of the digit. -/
theorem digitValue?_cases (b : UInt8) :
    (∃ n < 16, digitValue? b = some n ∧ IsHexByte b ∧ lowerChar b = hexDigits.getD n '0') ∨
      digitValue? b = none ∧ ¬ IsHexByte b := by
  have hsome : ∀ n < 256, ∀ v ∈ digitValue? (UInt8.ofNat n), v < 16 ∧ IsHexByte (UInt8.ofNat n) ∧
      lowerChar (UInt8.ofNat n) = hexDigits.getD v '0' := by
    decide +kernel
  have hnone : ∀ n < 256, digitValue? (UInt8.ofNat n) = none → ¬ IsHexByte (UInt8.ofNat n) := by
    decide +kernel
  have hvalue := hsome b.toNat b.toNat_lt
  have hno := hnone b.toNat b.toNat_lt
  rw [UInt8.ofNat_toNat] at hvalue hno
  cases h : digitValue? b with
  | none => exact Or.inr ⟨rfl, hno h⟩
  | some n =>
    obtain ⟨hn, hbyte, hlower⟩ := hvalue n h
    exact Or.inl ⟨n, hn, rfl, hbyte, hlower⟩

theorem digitAt_cases (position : Nat) (b : UInt8) :
    (∃ n < 16, digitAt position b = .ok n ∧ IsHexByte b ∧ lowerChar b = hexDigits.getD n '0') ∨
      ¬ IsHexByte b ∧ digitAt position b = .error (.badDigit b position) := by
  rcases digitValue?_cases b with ⟨n, hn, hvalue, hb, hlower⟩ | ⟨hvalue, hb⟩
  · exact Or.inl ⟨n, hn, by rw [digitAt, hvalue], hb, hlower⟩
  · exact Or.inr ⟨hb, by rw [digitAt, hvalue]⟩

/-! ## Bytes -/

/-- **The first byte that is no digit**, with its position. -/
structure FirstBad (digits : Bytes) (b : UInt8) (index : Nat) : Prop where
  at_index : digits[index]? = some b
  bad : ¬ IsHexByte b
  least : ∀ i < index, ∀ b', digits[i]? = some b' → IsHexByte b'

namespace FirstBad

variable {digits : Bytes} {b b' : UInt8} {index : Nat}

theorem head (h : ¬ IsHexByte b) (digits : Bytes) : FirstBad (b :: digits) b 0 :=
  ⟨rfl, h, fun _ hi => absurd hi (Nat.not_lt_zero _)⟩

theorem cons (hb' : IsHexByte b') (h : FirstBad digits b index) :
    FirstBad (b' :: digits) b (index + 1) where
  at_index := by rw [List.getElem?_cons_succ, h.at_index]
  bad := h.bad
  least := by
    intro i hi c hc
    cases i with
    | zero =>
      obtain rfl : b' = c := Option.some.inj hc
      exact hb'
    | succ i => exact h.least i (Nat.lt_of_succ_lt_succ hi) c hc

theorem not_forall (h : FirstBad digits b index) : ¬ ∀ b ∈ digits, IsHexByte b := fun hall =>
  h.bad (hall b (List.mem_of_getElem? h.at_index))

end FirstBad

/-- The digits of the byte that two values make up. -/
theorem hexPair_ofNat {hi lo : Nat} (hhi : hi < 16) (hlo : lo < 16) :
    hexPair (UInt8.ofNat (16 * hi + lo)) = [hexDigits.getD hi '0', hexDigits.getD lo '0'] := by
  have hvalue : (UInt8.ofNat (16 * hi + lo)).toNat = 16 * hi + lo := by
    rw [UInt8.toNat_ofNat']
    omega
  have hhigh : (16 * hi + lo) / 16 = hi := by omega
  have hlow : (16 * hi + lo) % 16 = lo := by omega
  rw [hexPair, hvalue, hhigh, hlow]

/-- **Pairs of bytes are read up to the first byte that is no digit.**  If there is none, the bytes
in lower case are the written form of what is read. -/
theorem decodeFrom_cases (position : Nat) (digits : Bytes) (heven : digits.length % 2 = 0) :
    (∃ bs, decodeFrom position digits = .ok bs ∧ (∀ b ∈ digits, IsHexByte b) ∧
        digits.map lowerChar = bs.flatMap hexPair) ∨
      ∃ b index, FirstBad digits b index ∧
        decodeFrom position digits = .error (.badDigit b (position + index)) := by
  induction position, digits using decodeFrom.induct with
  | case1 position => exact Or.inl ⟨[], rfl, nofun, rfl⟩
  | case2 position b => exact absurd heven (by simp)
  | case3 position hi lo rest ih =>
    rw [decodeFrom]
    rcases digitAt_cases position hi with ⟨h, hh, hhigh, hhi, hhiLower⟩ | ⟨hhi, hhigh⟩
    · rcases digitAt_cases (position + 1) lo with ⟨l, hl, hlow, hlo, hloLower⟩ | ⟨hlo, hlow⟩
      · have hrest : rest.length % 2 = 0 := by
          rw [List.length_cons, List.length_cons] at heven
          omega
        rcases ih hrest with ⟨bs, hok, hall, hlower⟩ | ⟨b, index, hbad, herr⟩
        · refine Or.inl ⟨UInt8.ofNat (16 * h + l) :: bs, ?_, ?_, ?_⟩
          · rw [hhigh, hlow, hok]
            rfl
          · rintro b (_ | ⟨_, _ | ⟨_, hb⟩⟩)
            · exact hhi
            · exact hlo
            · exact hall b hb
          · rw [List.map_cons, List.map_cons, hhiLower, hloLower, hlower, List.flatMap_cons,
              hexPair_ofNat hh hl]
            rfl
        · refine Or.inr ⟨b, index + 2, (hbad.cons hlo).cons hhi, ?_⟩
          rw [hhigh, hlow, herr, Nat.add_assoc, Nat.add_comm 2]
          rfl
      · refine Or.inr ⟨lo, 1, (FirstBad.head hlo rest).cons hhi, ?_⟩
        rw [hhigh, hlow]
        rfl
    · refine Or.inr ⟨hi, 0, FirstBad.head hhi (lo :: rest), ?_⟩
      rw [hhigh]
      rfl

/-- **Bytes are read, or refused for one of two reasons**, the count of them before any of them. -/
theorem decode_cases (digits : Bytes) :
    (digits.length % 2 = 1 ∧ decode digits = .error .oddLength) ∨
      digits.length % 2 = 0 ∧
        ((∃ bs, decode digits = .ok bs ∧ (∀ b ∈ digits, IsHexByte b) ∧
            digits.map lowerChar = bs.flatMap hexPair) ∨
          ∃ b index, FirstBad digits b index ∧ decode digits = .error (.badDigit b index)) := by
  rcases Nat.mod_two_eq_zero_or_one digits.length with heven | hodd
  · refine Or.inr ⟨heven, ?_⟩
    have hcases := decodeFrom_cases 0 digits heven
    simp only [Nat.zero_add] at hcases
    rwa [decode, if_pos heven]
  · exact Or.inl ⟨hodd, by rw [decode, if_neg (by omega)]⟩

/-! ## Characters -/

/-- A digit is one byte, and no other character has the byte of a digit in it. -/
theorem forall_isHexByte_utf8EncodeChar_iff {c : Char} :
    (∀ b ∈ String.utf8EncodeChar c, IsHexByte b) ↔ IsHexDigit c := by
  rcases utf8EncodeChar_cases c with ⟨hsmall, hbytes⟩ | ⟨hlarge, hbytes⟩
  · rw [hbytes, List.forall_mem_singleton, IsHexByte, UInt8.toNat_ofNat',
      Nat.mod_eq_of_lt (by omega), Char.ofNat_toNat]
  · apply iff_of_false
    · intro hall
      obtain ⟨b, hb⟩ := List.exists_mem_of_ne_nil (String.utf8EncodeChar c) (by simp)
      exact absurd (hall b hb).toNat_lt (Nat.not_lt.mpr (hbytes b hb))
    · intro hc
      exact absurd hc.cases.2.2.2 (Nat.not_lt.mpr hlarge)

variable {digits : List Char} {bytes : Bytes}

theorem forall_isHexByte_utf8_iff :
    (∀ b ∈ utf8 digits, IsHexByte b) ↔ ∀ c ∈ digits, IsHexDigit c := by
  simp only [utf8, List.forall_mem_flatMap, forall_isHexByte_utf8EncodeChar_iff]

/-- Digits are one byte each. -/
theorem utf8_eq_map (h : ∀ c ∈ digits, IsHexDigit c) :
    utf8 digits = digits.map fun c => UInt8.ofNat c.toNat := by
  induction digits with
  | nil => rfl
  | cons c digits ih =>
    rw [List.forall_mem_cons] at h
    rcases utf8EncodeChar_cases c with ⟨-, hbytes⟩ | ⟨hlarge, -⟩
    · rw [utf8_cons, hbytes, ih h.2]
      rfl
    · exact absurd h.1.cases.2.2.2 (Nat.not_lt.mpr hlarge)

theorem map_lowerChar_utf8 (h : ∀ c ∈ digits, IsHexDigit c) :
    (utf8 digits).map lowerChar = digits.map Char.toLower := by
  rw [utf8_eq_map h, List.map_map]
  apply List.map_congr_left
  intro c hc
  have hascii := (h c hc).cases.2.2.2
  rw [Function.comp_apply, lowerChar, UInt8.toNat_ofNat', Nat.mod_eq_of_lt (by omega),
    Char.ofNat_toNat]

/-- **An even number of digits is read**, and nothing else is. -/
theorem decode_utf8_ok_iff :
    (∃ bytes, decode (utf8 digits) = .ok bytes) ↔
      digits.length % 2 = 0 ∧ ∀ c ∈ digits, IsHexDigit c := by
  constructor
  · rintro ⟨bytes, hok⟩
    rcases decode_cases (utf8 digits) with
      ⟨-, herr⟩ | ⟨heven, ⟨bs, -, hall, -⟩ | ⟨b, index, -, herr⟩⟩
    · rw [herr] at hok
      cases hok
    · have hdigits := forall_isHexByte_utf8_iff.mp hall
      rw [utf8_eq_map hdigits, List.length_map] at heven
      exact ⟨heven, hdigits⟩
    · rw [herr] at hok
      cases hok
  · rintro ⟨heven, hdigits⟩
    rcases decode_cases (utf8 digits) with ⟨hodd, -⟩ | ⟨-, ⟨bs, hok, -⟩ | ⟨b, index, hbad, -⟩⟩
    · rw [utf8_eq_map hdigits, List.length_map] at hodd
      omega
    · exact ⟨bs, hok⟩
    · exact absurd (forall_isHexByte_utf8_iff.mpr hdigits) hbad.not_forall

/-- What is read is written in the digits that are read, in lower case. -/
theorem flatMap_hexPair_of_decode_utf8 (h : decode (utf8 digits) = .ok bytes) :
    bytes.flatMap hexPair = digits.map Char.toLower := by
  rcases decode_cases (utf8 digits) with
    ⟨-, herr⟩ | ⟨-, ⟨bs, hok, hall, hlower⟩ | ⟨b, index, -, herr⟩⟩
  · rw [herr] at h
    cases h
  · obtain rfl : bs = bytes := Except.ok.inj (hok.symm.trans h)
    rw [← hlower, map_lowerChar_utf8 (forall_isHexByte_utf8_iff.mp hall)]
  · rw [herr] at h
    cases h

theorem decode_utf8_of_bad (heven : (utf8 digits).length % 2 = 0)
    (h : ¬ ∀ c ∈ digits, IsHexDigit c) :
    ∃ b index, FirstBad (utf8 digits) b index ∧
      decode (utf8 digits) = .error (.badDigit b index) := by
  rcases decode_cases (utf8 digits) with ⟨hodd, -⟩ | ⟨-, ⟨bs, -, hall, -⟩ | hbad⟩
  · omega
  · exact absurd (forall_isHexByte_utf8_iff.mp hall) h
  · exact hbad

/-- Only digits are the written form of bytes in lower case. -/
theorem isHexDigit_of_map_toLower (h : digits.map Char.toLower = bytes.flatMap hexPair) :
    ∀ c ∈ digits, IsHexDigit c := by
  intro c hc
  apply isHexDigit_of_toLower
  have hmem : c.toLower ∈ digits.map Char.toLower := List.mem_map_of_mem hc
  rw [h] at hmem
  exact mem_hexDigits_of_mem_flatMap_hexPair hmem

/-- **Digits are read as the bytes whose written form they are**, in whichever letter case. -/
theorem decode_utf8_of_lower (h : digits.map Char.toLower = bytes.flatMap hexPair) :
    decode (utf8 digits) = .ok bytes := by
  have hlength : digits.length = 2 * bytes.length := by
    rw [← length_flatMap_hexPair, ← h, List.length_map]
  obtain ⟨bs, hok⟩ := decode_utf8_ok_iff.mpr ⟨by omega, isHexDigit_of_map_toLower h⟩
  have hsame := (flatMap_hexPair_of_decode_utf8 hok).trans h
  have hback := decodeFrom_flatMap_hexPair 0 bs
  rw [hsame, decodeFrom_flatMap_hexPair] at hback
  rw [hok, Except.ok.inj hback]

/-! ## Texts -/

/-- The marks that hex may stand behind. -/
def marks : List String := ["0x", "0X"]

/-- **What is left of a text**: the digits of its core behind the mark in front of them, or the
whole core if it starts with no mark. -/
def IsBare (s digits : String) : Prop :=
  ∃ core, Text.IsTrimmed s.toList core ∧
    ((∃ mark ∈ marks, core = mark.toList ++ digits.toList) ∨
      (∀ mark ∈ marks, ¬ mark.toList <+: core) ∧ core = digits.toList)

theorem eq_unmark_iff {core : List Char} :
    (∃ mark ∈ marks, core = mark.toList ++ digits) ∨
        (∀ mark ∈ marks, ¬ mark.toList <+: core) ∧ core = digits ↔
      digits = unmark core := by
  fun_cases unmark core with
  | case1 rest => simp [marks, eq_comm]
  | case2 rest => simp [marks, eq_comm]
  | case3 core hlower hupper =>
    have hno : ∀ mark ∈ marks, ∀ rest, core ≠ mark.toList ++ rest := by
      intro mark hmark rest hcore
      rcases List.mem_pair.mp hmark with rfl | rfl
      · exact hlower rest hcore
      · exact hupper rest hcore
    constructor
    · rintro (⟨mark, hmark, hcore⟩ | ⟨-, hcore⟩)
      · exact absurd hcore (hno mark hmark digits)
      · exact hcore.symm
    · intro hdigits
      refine Or.inr ⟨?_, hdigits.symm⟩
      rintro mark hmark ⟨rest, hcore⟩
      exact hno mark hmark rest hcore.symm

/-- **What is left of a text is what is read of it**, and there is nothing else that could be. -/
theorem isBare_iff {s digits : String} :
    IsBare s digits ↔ digits.toList = unmark (Text.trimChars s.toList) := by
  simp only [IsBare, Text.isTrimmed_iff, exists_eq_left, eq_unmark_iff]

theorem parse_of_isBare {s digits : String} (h : IsBare s digits) :
    parse s = decode (utf8 digits.toList) := by
  rw [isBare_iff.mp h]
  rfl

/-- Blanks around digits and one mark in front of them are taken off, and no more than that. -/
theorem isBare_append {front mark digits back : String} (hmark : mark ∈ "" :: marks)
    (hdigits : ∀ c ∈ digits.toList, IsHexDigit c)
    (hfront : ∀ c ∈ front.toList, Text.isBlank c = true)
    (hback : ∀ c ∈ back.toList, Text.isBlank c = true) :
    IsBare (front ++ mark ++ digits ++ back) digits := by
  have hcore : ∀ c ∈ (mark ++ digits).toList, Text.isBlank c = false := by
    intro c hc
    rw [String.toList_append, List.mem_append] at hc
    rcases hc with hc | hc
    · have hall : ("" :: marks).all fun mark => mark.toList.all fun c =>
          decide (Text.isBlank c = false) := by
        decide
      exact of_decide_eq_true (List.all_eq_true.mp (List.all_eq_true.mp hall mark hmark) c hc)
    · exact (hdigits c hc).cases.1
  refine ⟨(mark ++ digits).toList, ?_, ?_⟩
  · refine ⟨⟨front.toList, back.toList, ?_, hfront, hback⟩, ?_, ?_⟩
    · simp only [String.toList_append, List.append_assoc]
    · intro c hc
      exact hcore c (List.mem_of_mem_head? hc)
    · intro c hc
      exact hcore c (List.mem_of_getLast? hc)
  · rcases List.mem_cons.mp hmark with rfl | hmark
    · rw [String.empty_append]
      refine Or.inr ⟨?_, rfl⟩
      intro mark hmark hstarts
      rcases List.mem_pair.mp hmark with rfl | rfl
      · exact (hdigits 'x' (hstarts.subset (by decide))).cases.2.1 rfl
      · exact (hdigits 'X' (hstarts.subset (by decide))).cases.2.2.1 rfl
    · exact Or.inl ⟨mark, hmark, String.toList_append⟩

end Hex

/-! ## Reading -/

namespace Hex

theorem read_ok_iff {s : String} {bytes : Bytes} : read s = .ok bytes ↔ parse s = .ok bytes := by
  cases h : parse s with
  | error e => simp [read, h, Except.mapError]
  | ok bs => simp [read, h, Except.mapError]

theorem read_of_error {s : String} {e : HexError} (h : parse s = .error e) :
    read s = .error (.invalidHex e) := by
  rw [read, h]
  rfl

end Hex

/-- A selector is read where four bytes are. -/
theorem Selector.read_ok_iff {s : String} :
    (∃ selector, read s = .ok selector) ↔ ∃ bytes, Hex.parse s = .ok bytes ∧ bytes.length = 4 := by
  unfold read parse
  cases h : Hex.parse s with
  | error e => simp [bind, Except.bind, Except.mapError]
  | ok bytes =>
    have hfour := isSome_ofBytes?_iff bytes
    cases hbytes : ofBytes? bytes with
    | none =>
      rw [hbytes] at hfour
      have hsize : bytes.length ≠ 4 := fun hsize => absurd (hfour.mpr hsize) (by decide)
      simp [bind, Except.bind, hbytes, Except.mapError, hsize, throw, throwThe, MonadExceptOf.throw]
    | some selector =>
      rw [hbytes] at hfour
      have hsize : bytes.length = 4 := hfour.mp rfl
      simp [bind, Except.bind, hbytes, Except.mapError, hsize, pure, Except.pure]

namespace Hex

variable {s digits : String}

theorem exists_read_ok_iff (h : IsBare s digits) :
    (∃ bytes, read s = .ok bytes) ↔
      digits.length % 2 = 0 ∧ ∀ c ∈ digits.toList, IsHexDigit c := by
  simp only [read_ok_iff, parse_of_isBare h, decode_utf8_ok_iff, String.length_toList]

theorem encode_of_read (h : IsBare s digits) {bytes : Bytes} (hread : read s = .ok bytes) :
    encode bytes = lowerCase digits := by
  rw [read_ok_iff, parse_of_isBare h] at hread
  rw [← String.toList_inj, toList_encode, flatMap_hexPair_of_decode_utf8 hread, lowerCase,
    String.toList_map]

theorem exists_read_selector_ok_iff (h : IsBare s digits) :
    (∃ selector, Selector.read s = .ok selector) ↔
      digits.length = 8 ∧ ∀ c ∈ digits.toList, IsHexDigit c := by
  rw [Selector.read_ok_iff, parse_of_isBare h]
  have hlength {bytes} (hok : decode (utf8 digits.toList) = .ok bytes) :
      digits.length = 2 * bytes.length := by
    rw [← length_flatMap_hexPair, flatMap_hexPair_of_decode_utf8 hok, List.length_map,
      String.length_toList]
  constructor
  · rintro ⟨bytes, hok, hfour⟩
    have hsize := hlength hok
    exact ⟨by omega, (decode_utf8_ok_iff.mp ⟨bytes, hok⟩).2⟩
  · rintro ⟨height, hdigits⟩
    obtain ⟨bytes, hok⟩ := decode_utf8_ok_iff.mpr ⟨by rw [String.length_toList, height], hdigits⟩
    have hsize := hlength hok
    exact ⟨bytes, hok, by omega⟩

/-- **The texts that are read**, what they are read as, and how all others are refused. -/
theorem read_grammar :
    (∀ s, ∃ digits, (∀ digits', IsBare s digits' ↔ digits' = digits) ∧
      ((∃ bytes, read s = .ok bytes) ↔
        digits.length % 2 = 0 ∧ ∀ c ∈ digits.toList, IsHexDigit c) ∧
      (∀ bytes, read s = .ok bytes → encode bytes = lowerCase digits) ∧
      ((utf8 digits.toList).length % 2 = 1 → read s = .error (.invalidHex .oddLength)) ∧
      ((utf8 digits.toList).length % 2 = 0 → ¬ (∀ c ∈ digits.toList, IsHexDigit c) →
        ∃ b index, FirstBad (utf8 digits.toList) b index ∧
          read s = .error (.invalidHex (.badDigit b index))) ∧
      ((∃ selector, Selector.read s = .ok selector) ↔
        digits.length = 8 ∧ ∀ c ∈ digits.toList, IsHexDigit c)) ∧
    ∀ bytes front mark digits back, lowerCase digits = encode bytes → mark ∈ "" :: marks →
      (∀ c ∈ front.toList, Text.isBlank c = true) → (∀ c ∈ back.toList, Text.isBlank c = true) →
      read (front ++ mark ++ digits ++ back) = .ok bytes := by
  constructor
  · intro s
    obtain ⟨digits, hdigits⟩ : ∃ digits, ∀ digits', IsBare s digits' ↔ digits' = digits :=
      ⟨String.ofList (unmark (Text.trimChars s.toList)), fun digits' => by
        rw [isBare_iff, ← String.toList_inj, String.toList_ofList]⟩
    have hbare : IsBare s digits := (hdigits digits).mpr rfl
    refine ⟨digits, hdigits, exists_read_ok_iff hbare, fun _ => encode_of_read hbare, ?odd, ?bad,
      exists_read_selector_ok_iff hbare⟩
    case odd =>
      intro hodd
      apply read_of_error
      rw [parse_of_isBare hbare, decode, if_neg (by omega)]
    case bad =>
      intro heven hnot
      obtain ⟨b, index, hbad, herr⟩ := decode_utf8_of_bad heven hnot
      exact ⟨b, index, hbad, read_of_error (by rw [parse_of_isBare hbare, herr])⟩
  · intro bytes front mark digits back hlower hmark hfront hback
    have hmap : digits.toList.map Char.toLower = bytes.flatMap hexPair := by
      rw [← toList_encode, ← hlower, lowerCase, String.toList_map]
    have hbare := isBare_append hmark (isHexDigit_of_map_toLower hmap) hfront hback
    rw [read_ok_iff, parse_of_isBare hbare, decode_utf8_of_lower hmap]

/-- Blanks of any kind, a capital mark and capital digits make no difference, and a second mark is
no digit. -/
theorem read_grammar_marked :
    lowerCase "00Ff" = encode [0, 255] ∧ "0X" ∈ "" :: marks ∧
      read ("\u00a0 " ++ "0X" ++ "00Ff" ++ "\n") = .ok [0, 255] ∧
      ∃ b index, FirstBad (utf8 "0x12".toList) b index ∧
        read "0x0x12" = .error (.invalidHex (.badDigit b index)) := by
  have hlower : lowerCase "00Ff" = encode [0, 255] := by
    rw [← String.toList_inj, lowerCase, String.toList_map]
    decide
  have hmark : "0X" ∈ "" :: marks := by decide
  have hfront : "\u00a0 ".toList.all Text.isBlank = true := by decide
  have hback : "\n".toList.all Text.isBlank = true := by decide
  refine ⟨hlower, hmark, read_grammar.2 [0, 255] "\u00a0 " "0X" "00Ff" "\n" hlower hmark
    (List.all_eq_true.mp hfront) (List.all_eq_true.mp hback), ?_⟩
  obtain ⟨digits, hdigits, -, -, -, hbad, -⟩ := read_grammar.1 "0x0x12"
  obtain rfl : "0x12" = digits := (hdigits _).mp (isBare_iff.mpr (by decide))
  exact hbad (by decide) fun hall => absurd (hall 'x' (by decide)) (by decide)

/-- The two bytes of one character pair up, and the first of them is no digit. -/
example : read "0xé" = .error (.invalidHex (.badDigit 195 0)) := by decide

end Hex

end RouterCalldata
