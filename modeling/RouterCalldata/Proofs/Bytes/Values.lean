import RouterCalldata.Proofs.Bytes.BigEndian

/-!
# Values of fixed width

Numbers of 256 bits, addresses of 20 bytes, and the words of 32 bytes that they take up in a
buffer.  The text of an address is spelled out here from a row of sixteen digits, so that it can
be compared with what a reader writes.

## Main definitions

* `Uint256`, `Address`, `Word`: the values;
* `Word.ofNat`, `Word.ofAddress`: the word of a number and of an address;
* `Address.text`: an address in lowercase hex behind a mark.

## Main results

* `Word.decimal_ofNat`: a word read in decimal is the numeral of its number;
* `Word.encode0x_ofAddress`: the word of an address, read in hex, is its text.
-/

namespace RouterCalldata

/-- A number of 256 bits. -/
abbrev Uint256 := Fin (2 ^ 256)

/-- Twenty bytes. -/
structure Address where
  bytes : Bytes
  length_bytes : bytes.length = addressSize

/-- Thirty-two bytes. -/
structure Word where
  bytes : Bytes
  length_bytes : bytes.length = wordSize

/-! ## Hex text -/

/-- The sixteen digits. -/
def hexDigits : List Char := "0123456789abcdef".toList

/-- The two digits of a byte. -/
def hexPair (b : UInt8) : List Char :=
  [hexDigits.getD (b.toNat / 16) '0', hexDigits.getD (b.toNat % 16) '0']

/-- Bytes in lowercase hex behind a mark. -/
def hexText (bs : Bytes) : String := "0x" ++ String.ofList (bs.flatMap hexPair)

theorem digit_eq_getD {n : Nat} (h : n < 16) : Hex.digit n = hexDigits.getD n '0' := by
  revert n
  decide

theorem byteDigits_eq_hexPair (b : UInt8) : Hex.byteDigits b = hexPair b := by
  have hb := b.toNat_lt
  rw [Hex.byteDigits, hexPair, digit_eq_getD (by omega), digit_eq_getD (by omega)]

theorem encode0x_eq_hexText (bs : Bytes) : Hex.encode0x bs = hexText bs := by
  have hdigits : Hex.byteDigits = hexPair := funext byteDigits_eq_hexPair
  rw [Hex.encode0x, Hex.encode, hexText, hdigits]

/-- The written form of an address. -/
def Address.text (a : Address) : String := hexText a.bytes

namespace Word

/-- The word of a number. -/
def ofNat (n : Nat) : Word := ⟨Bytes.bigEndian wordSize n, Bytes.length_bigEndian wordSize n⟩

/-- The word of an address, which has twelve zero bytes in front. -/
def ofAddress (a : Address) : Word :=
  ⟨List.replicate (wordSize - addressSize) 0 ++ a.bytes, by
    rw [List.length_append, List.length_replicate, a.length_bytes]
    rfl⟩

theorem toNat_ofNat {n : Nat} (h : n < 2 ^ 256) : Bytes.toNat (ofNat n).bytes = n := by
  have hpow : (256 : Nat) ^ wordSize = 2 ^ 256 := by decide
  rw [ofNat, Bytes.toNat_bigEndian, hpow, Nat.mod_eq_of_lt h]

/-- A word read in decimal is the numeral of its number. -/
theorem decimal_ofNat (n : Uint256) : Bytes.decimal (ofNat n.val).bytes = Nat.repr n.val := by
  rw [Bytes.decimal, toNat_ofNat n.isLt]

/-- The low bytes of the word of an address are its text. -/
theorem encode0x_ofAddress (a : Address) :
    Hex.encode0x ((ofAddress a).bytes.drop (wordSize - addressSize)) = a.text := by
  have hdrop : (ofAddress a).bytes.drop (wordSize - addressSize) = a.bytes :=
    List.drop_left' (List.length_replicate ..)
  rw [hdrop, encode0x_eq_hexText, Address.text]

end Word

end RouterCalldata
