import RouterCalldata.Proofs.Multicall.Layout
import RouterCalldata.Proofs.Record.Acceptance

/-!
# Words by their index

A block of calls and an array of tokens are found through a word that is named by its index.  The
position of the word is its index times the size of a word, and of all products and sums of
positions this is the one that is reduced to 64 bits without a check.  So an index has 59 bits, and
a greater one names the word of its low bits: the block is never left, but the word that is read is
another one than the one asked for, and what is read may succeed far behind the end of the block.

Below 59 bits nothing is reduced.  The word behind the last index ends where the numbers of 64 bits
do, and no block reaches that far, so the array of calls behind a word that was read has its exact
position as well.

## Main definitions

* `wordCount`: the number of words whose positions differ.

## Main results

* `wordOffset_eq_mod`: the position of a word is the exact one of its reduced index;
* `readTokenPath_mod`, `Multicall.split_mod`: an index and its low bits are read alike;
* `not_forall_index_in_block`: an index may be read whose word is not in the block;
* `index_reduced`: what is read at an index, and when it is the word that was asked for.
-/

namespace RouterCalldata

open Decoded Multicall

/-- The number of words that have positions of 64 bits. -/
abbrev wordCount : Nat := Nat.pow 2 59

/-! ## Reduced positions -/

/-- **The position of a word is the exact one of its reduced index.** -/
theorem wordOffset_eq_mod (index : Nat) : wordOffset index = wordSize * (index % wordCount) := by
  have hlimit : Offset.limit = wordSize * wordCount := by decide
  rw [wordOffset, hlimit, Nat.mul_comm index, Nat.mul_mod_mul_left]

theorem wordOffset_mod (index : Nat) : wordOffset (index % wordCount) = wordOffset index := by
  rw [wordOffset_eq_mod, wordOffset_eq_mod, Nat.mod_mod]

theorem wordOffset_mod_succ (index : Nat) :
    wordOffset (index % wordCount + 1) = wordOffset (index + 1) := by
  rw [wordOffset_eq_mod, wordOffset_eq_mod, Nat.mod_add_mod]

/-- The exact position of a reduced index has 64 bits. -/
theorem mul_mod_wordCount_lt (index : Nat) : wordSize * (index % wordCount) < Offset.limit := by
  rw [← wordOffset_eq_mod]
  exact Nat.mod_lt _ (by decide)

variable {params : Bytes}

/-- A path is read alike at an index and at its low bits. -/
theorem readTokenPath_mod (params : Bytes) (slot : Nat) :
    readTokenPath params (slot % wordCount) = readTokenPath params slot := by
  rw [readTokenPath, readTokenPath, wordOffset_mod]

/-- A block is split alike at an index and at its low bits. -/
theorem Multicall.split_mod (params : Bytes) (headWord : Nat) :
    split params (headWord % wordCount) = split params headWord := by
  rw [split, split, wordOffset_mod, wordOffset_mod_succ]

/-! ## What is read at an index -/

section Fit

variable (hfit : params.length < Offset.limit)

include hfit

/-- Of the words whose reduced indices are in a block, those are in it themselves whose
indices are reduced. -/
theorem mul_le_length_iff {index count : Nat}
    (hle : wordSize * (index % wordCount + count) ≤ params.length) :
    wordSize * (index + count) ≤ params.length ↔ index < wordCount := by
  constructor
  · intro h
    by_contra hge
    have hlimit : Offset.limit ≤ wordSize * (index + count) :=
      calc Offset.limit = wordSize * wordCount := by decide
        _ ≤ wordSize * (index + count) :=
          Nat.mul_le_mul_left _ (Nat.le_add_right_of_le (Nat.not_lt.mp hge))
    exact absurd (Nat.le_trans hlimit h) (Nat.not_le.mpr hfit)
  · intro hlt
    rwa [Nat.mod_eq_of_lt hlt] at hle

/-- **A path is read exactly if the word of the reduced index leads to one.** -/
theorem readTokenPath_mod_eq_ok_iff {slot : Nat} {ends : String × String} :
    readTokenPath params slot = .ok ends ↔
      ∃ offset len, IsTokenPath params (slot % wordCount) offset len ∧
        ends = tokenEnds params offset len := by
  rw [← readTokenPath_mod]
  exact readTokenPath_eq_ok_iff hfit (mul_mod_wordCount_lt slot)

/-- **A block is split exactly if it is laid out behind the word of the reduced index.**  Where the
word behind has no position of 64 bits, neither does the block have the word itself. -/
theorem Multicall.split_mod_eq_ok_iff {headWord : Nat} {calls : List Bytes} :
    split params headWord = .ok calls ↔
      ∃ entries, IsLaidOut params (headWord % wordCount) entries ∧
        calls = entries.map (Entry.call params (tableStart (headWord % wordCount))) := by
  rw [← split_mod]
  generalize hword : headWord % wordCount = word
  rcases Nat.lt_or_ge (wordSize * (word + 1)) Offset.limit with hlt | hge
  · exact split_eq_ok_iff hfit hlt
  · have hbehind : ¬ wordSize * (word + 1) ≤ params.length :=
      Nat.not_le.mpr (Nat.lt_of_lt_of_le hfit hge)
    constructor
    · intro h
      rw [split_eq] at h
      obtain ⟨⟨base, count⟩, hcount, -⟩ := bind_eq_ok_iff.mp h
      obtain ⟨-, harray, -, -⟩ := of_readCount hcount
      have hread := ((Bytes.readOffset_eq_ok_iff hfit).mp harray).1
      rw [← hword, wordOffset_mod, wordOffset_eq_mod, hword] at hread
      exact absurd (Bytes.length_le_of_numberAt? hread) hbehind
    · rintro ⟨entries, hlaid, -⟩
      exact absurd (Bytes.length_le_of_numberAt? hlaid.array_eq) hbehind

end Fit

/-! ## Words that are not in the block -/

/-- An array of two tokens behind a word that leads to it. -/
def tokensBehindWord : Bytes := [32, 2, 5, 6].flatMap fun n => (Word.ofNat n).bytes

/-- An array of no calls behind a word that leads to it. -/
def noCallsBehindWord : Bytes := [32, 0].flatMap fun n => (Word.ofNat n).bytes

/-- **An index may be read whose word is not in the block**, nor what follows it: the first index of
60 bits names the first word. -/
theorem not_forall_index_in_block :
    (¬ ∀ (params : Bytes) (slot : Nat) (ends : String × String), params.length < Nat.pow 2 63 →
      slot < Offset.limit → readTokenPath params slot = .ok ends →
        wordSize * (slot + 1) ≤ params.length) ∧
    ¬ ∀ (params : Bytes) (headWord : Nat) (calls : List Bytes), params.length < Nat.pow 2 63 →
      headWord < Offset.limit → split params headWord = .ok calls →
        wordSize * (headWord + 2) ≤ params.length := by
  have hpath : readTokenPath tokensBehindWord wordCount =
      .ok ("0x0000000000000000000000000000000000000005",
        "0x0000000000000000000000000000000000000006") := by
    decide +kernel
  have hcalls : split noCallsBehindWord wordCount = .ok [] := by decide +kernel
  constructor
  · intro h
    exact absurd (h _ _ _ (by decide +kernel) (by decide) hpath) (by decide +kernel)
  · intro h
    exact absurd (h _ _ _ (by decide +kernel) (by decide) hcalls) (by decide +kernel)

/-- **What is read at an index is read at its low 59 bits**: a path exactly if the word of the
reduced index leads to one, and calls exactly if they are laid out behind that word.  This word is
in the block, and so is the one behind it for calls, but the word that was asked for is in the
block exactly if its index has 59 bits.  No index drives a reading out of its range. -/
theorem index_reduced (hfit : params.length < Offset.limit) (index : Nat) :
    (∀ ends, readTokenPath params index = .ok ends ↔
      ∃ offset len, IsTokenPath params (index % wordCount) offset len ∧
        ends = tokenEnds params offset len) ∧
    (∀ calls, split params index = .ok calls ↔
      ∃ entries, IsLaidOut params (index % wordCount) entries ∧
        calls = entries.map (Entry.call params (tableStart (index % wordCount)))) ∧
    ((∃ ends, readTokenPath params index = .ok ends) →
      wordSize * (index % wordCount + 1) ≤ params.length ∧
        (wordSize * (index + 1) ≤ params.length ↔ index < wordCount)) ∧
    ((∃ calls, split params index = .ok calls) →
      wordSize * (index % wordCount + 2) ≤ params.length ∧
        params.numberAt? (wordSize * (index % wordCount)) =
          some (wordSize * (index % wordCount + 1)) ∧
        (wordSize * (index + 2) ≤ params.length ↔ index < wordCount)) ∧
    Faultless (readTokenPath params index) ∧ Faultless (split params index) := by
  refine ⟨fun ends => readTokenPath_mod_eq_ok_iff hfit, fun calls => split_mod_eq_ok_iff hfit,
    ?_, ?_, (checked_readTokenPath params index).faultless, faultless_split hfit index⟩
  · rintro ⟨ends, h⟩
    obtain ⟨offset, len, hpath, -⟩ := (readTokenPath_mod_eq_ok_iff hfit).mp h
    have hword : wordSize * (index % wordCount + 1) ≤ params.length :=
      Bytes.length_le_of_numberAt? hpath.offset_eq
    exact ⟨hword, mul_le_length_iff hfit hword⟩
  · rintro ⟨calls, h⟩
    obtain ⟨entries, hlaid, -⟩ := (split_mod_eq_ok_iff hfit).mp h
    have htable : wordSize * (index % wordCount + 2) ≤ params.length :=
      Nat.le_trans (Nat.le_add_right _ _) hlaid.table_le
    exact ⟨htable, hlaid.array_eq, mul_le_length_iff hfit htable⟩

/-- The first index of 60 bits, in two blocks that it is far behind. -/
theorem index_reduced_firstWord :
    tokensBehindWord.length < Offset.limit ∧ noCallsBehindWord.length < Offset.limit ∧
      IsTokenPath tokensBehindWord 0 32 2 ∧
      readTokenPath tokensBehindWord wordCount = .ok (tokenEnds tokensBehindWord 32 2) ∧
      IsLaidOut noCallsBehindWord 0 [] ∧ split noCallsBehindWord wordCount = .ok [] := by
  have hfit : tokensBehindWord.length < Offset.limit := by decide +kernel
  have hfit' : noCallsBehindWord.length < Offset.limit := by decide +kernel
  have hpath : IsTokenPath tokensBehindWord 0 32 2 := by decide +kernel
  have hlaid : IsLaidOut noCallsBehindWord 0 [] := by decide +kernel
  exact ⟨hfit, hfit', hpath, ((index_reduced hfit wordCount).1 _).mpr ⟨32, 2, hpath, rfl⟩, hlaid,
    ((index_reduced hfit' wordCount).2.1 _).mpr ⟨[], hlaid, rfl⟩⟩

end RouterCalldata
