import Mathlib.Data.List.Lex
import Mathlib.Data.String.Basic
import Mathlib.Tactic.SplitIfs
import RouterCalldata.Bytes.Hex

/-!
# Texts as bytes

A character takes one to four bytes in UTF-8.  Those of the characters below 128 are their code
points, and the bytes of all others are 128 and above, so that a byte below 128 always stands for a
character of its own.

Texts are compared by the code points of their characters, and their bytes are in the same order.
The first byte of a character tells how many bytes it takes: more bytes make it greater, and no
encoding starts another one.  Of two characters of as many bytes the greater one has the greater
byte where they first differ.

## Main results

* `not_mem_utf8EncodeChar`: a byte below 128 takes no part in the encoding of another character;
* `utf8EncodeChar_append_lt`: the order of two characters, whatever follows them;
* `utf8_lt_utf8_iff`: the order of texts is that of their bytes.
-/

namespace RouterCalldata

/-! ## Characters -/

/-- The encoding of a character is its code point, or else it has no byte below 128. -/
theorem utf8EncodeChar_cases (c : Char) :
    (c.toNat < 128 ∧ String.utf8EncodeChar c = [UInt8.ofNat c.toNat]) ∨
      (128 ≤ c.toNat ∧ ∀ b ∈ String.utf8EncodeChar c, 128 ≤ b.toNat) := by
  have hc : c.toNat = c.val.toNat := rfl
  rw [hc]
  unfold String.utf8EncodeChar
  dsimp only
  split_ifs with h1 h2 h3
  · exact Or.inl ⟨by omega, rfl⟩
  all_goals
    refine Or.inr ⟨by omega, ?_⟩
    simp
    omega

/-- A byte below 128 takes no part in the encoding of another character. -/
theorem not_mem_utf8EncodeChar {c c' : Char} (hc : c.toNat < 128) (hne : c' ≠ c) :
    UInt8.ofNat c.toNat ∉ String.utf8EncodeChar c' := by
  have hbyte : (UInt8.ofNat c.toNat).toNat = c.toNat := by
    rw [UInt8.toNat_ofNat']
    omega
  intro hmem
  rcases utf8EncodeChar_cases c' with ⟨hc', henc⟩ | ⟨-, henc⟩
  · rw [henc, List.mem_singleton] at hmem
    have hsame := congrArg UInt8.toNat hmem
    rw [hbyte, UInt8.toNat_ofNat', Nat.mod_eq_of_lt (by omega)] at hsame
    apply hne
    rw [← Char.ofNat_toNat c', ← Char.ofNat_toNat c, hsame]
  · have hlarge := henc _ hmem
    omega

/-! ## Characters in a row -/

theorem utf8_cons (c : Char) (cs : List Char) :
    Hex.utf8 (c :: cs) = String.utf8EncodeChar c ++ Hex.utf8 cs :=
  List.flatMap_cons

theorem utf8_append (a b : List Char) : Hex.utf8 (a ++ b) = Hex.utf8 a ++ Hex.utf8 b :=
  List.flatMap_append

theorem utf8_singleton (c : Char) : Hex.utf8 [c] = String.utf8EncodeChar c := by
  simp [Hex.utf8]

/-! ## Order -/

theorem toNat_val_lt (c : Char) : c.val.toNat < 0x110000 := by
  have hvalid : c.val.toNat < 0xD800 ∨ 0xDFFF < c.val.toNat ∧ c.val.toNat < 0x110000 := c.valid
  omega

/-- **The encoding of the smaller character comes first**, whatever follows the two. -/
theorem utf8EncodeChar_append_lt {c d : Char} (h : c < d) (bs bs' : Bytes) :
    String.utf8EncodeChar c ++ bs < String.utf8EncodeChar d ++ bs' := by
  have hlt : c.val.toNat < d.val.toNat := h
  have hd : d.val.toNat < 0x110000 := toNat_val_lt d
  have hfirst {v : Nat} (hv : v < 0x110000) :
      (v / 262144 % 8 + 240) % 2 ^ 8 = v / 262144 + 240 := by omega
  have hlater (v : Nat) : (v % 64 + 128) % 2 ^ 8 = v % 64 + 128 := by omega
  unfold String.utf8EncodeChar
  dsimp only
  generalize c.val.toNat = m at *
  generalize d.val.toNat = n at *
  -- one case for each number of bytes of either: first bytes decide where these differ, and the
  -- digits to the base of 64 where they are the same
  split_ifs
  all_goals
    simp only [List.cons_append, List.nil_append, List.cons_lt_cons_iff, UInt8.lt_iff_toNat_lt,
      ← UInt8.toNat_inj, UInt8.toNat_ofNat', hlater, hfirst hd, hfirst (hlt.trans hd)]
    omega

theorem utf8_lt_of_lt {cs ds : List Char} (h : cs < ds) : Hex.utf8 cs < Hex.utf8 ds := by
  induction h with
  | @nil d ds =>
    obtain ⟨b, bs, hbytes⟩ := List.exists_cons_of_ne_nil (String.utf8EncodeChar_ne_nil (c := d))
    rw [utf8_cons, hbytes]
    exact List.nil_lt_cons b (bs ++ Hex.utf8 ds)
  | cons _ ih =>
    rw [utf8_cons, utf8_cons]
    exact List.append_left_lt ih
  | rel hchar =>
    rw [utf8_cons, utf8_cons]
    exact utf8EncodeChar_append_lt hchar _ _

/-- **The order of texts is that of their bytes.** -/
theorem utf8_lt_utf8_iff {s t : String} : Hex.utf8 s.toList < Hex.utf8 t.toList ↔ s < t := by
  rw [String.lt_iff_toList_lt]
  constructor
  · intro h
    rcases lt_trichotomy s.toList t.toList with hlt | heq | hgt
    · exact hlt
    · rw [heq] at h
      exact absurd h (List.lt_irrefl _)
    · exact absurd h (List.lt_asymm (utf8_lt_of_lt hgt))
  · exact utf8_lt_of_lt

end RouterCalldata
