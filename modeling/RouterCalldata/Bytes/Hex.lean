import RouterCalldata.Text.Blank
import RouterCalldata.Text.Quoted

/-!
# Hex text

Byte strings are written with two lowercase hex digits a byte and read in
either letter case.  A text handed in by a user may be surrounded by blanks
and may carry one `0x` or `0X` mark.

## Main definitions

* `encode`, `encode0x`: the written form, bare and with the mark;
* `decode`: reads bare digits given as bytes, refusing an odd count first and
  then the first byte that is no digit;
* `unmark`: takes one mark off;
* `parse`: reads a user's text.
-/

namespace RouterCalldata

/-- A string of bytes: calldata, a parameter block, a word. -/
abbrev Bytes := List UInt8

/-- Why a text is not the hex form that is asked for. -/
inductive HexError
  /-- The digits do not pair up. -/
  | oddLength
  /-- The byte at `position` is no hex digit. -/
  | badDigit (byte : UInt8) (position : Nat)
  /-- A selector was asked for and the digits stand for `got` bytes. -/
  | selectorSize (got : Nat)
  deriving DecidableEq, Repr

namespace HexError

/-- The reason as it is shown to the user. -/
def reason : HexError → String
  | oddLength => "Odd number of digits"
  | badDigit byte position => s!"Invalid character {Text.quoteByte byte} at position {position}"
  | selectorSize got => s!"selector must be 4 bytes, got {got}"

end HexError

namespace Hex

/-! ## Writing -/

/-- The lowercase digit of a number below sixteen. -/
def digit (n : Nat) : Char :=
  if n < 10 then Char.ofNat (0x30 + n) else Char.ofNat (0x57 + n)

/-- The two digits of a byte, high half first. -/
def byteDigits (b : UInt8) : List Char :=
  [digit (b.toNat / 16), digit (b.toNat % 16)]

/-- Lowercase hex of a byte string. -/
def encode (bs : Bytes) : String :=
  String.ofList (bs.flatMap byteDigits)

/-- Lowercase hex of a byte string behind a `0x` mark. -/
def encode0x (bs : Bytes) : String :=
  "0x" ++ encode bs

/-! ## Reading -/

/-- The value of a hex digit of either letter case, given as an ASCII byte. -/
def digitValue? (b : UInt8) : Option Nat :=
  let n := b.toNat
  if 0x30 ≤ n && n ≤ 0x39 then some (n - 0x30)
  else if 0x41 ≤ n && n ≤ 0x46 then some (n - 0x37)
  else if 0x61 ≤ n && n ≤ 0x66 then some (n - 0x57)
  else none

/-- The value of the digit at `position`. -/
def digitAt (position : Nat) (b : UInt8) : Except HexError Nat :=
  match digitValue? b with
  | some n => .ok n
  | none => .error (.badDigit b position)

/-- Reads digits in pairs, the first of them standing at `position`. -/
def decodeFrom (position : Nat) : Bytes → Except HexError Bytes
  | [] => .ok []
  | [_] => .error .oddLength
  | hi :: lo :: rest => do
      let h ← digitAt position hi
      let l ← digitAt (position + 1) lo
      let tail ← decodeFrom (position + 2) rest
      return UInt8.ofNat (16 * h + l) :: tail

/-- Reads bare hex digits.  An odd count is refused before any digit is looked
at. -/
def decode (digits : Bytes) : Except HexError Bytes :=
  if digits.length % 2 = 0 then decodeFrom 0 digits else .error .oddLength

/-- Takes one leading `0x` or `0X` off. -/
def unmark : List Char → List Char
  | '0' :: 'x' :: rest => rest
  | '0' :: 'X' :: rest => rest
  | cs => cs

/-- The UTF-8 bytes of a list of characters. -/
def utf8 (cs : List Char) : Bytes :=
  cs.flatMap String.utf8EncodeChar

/-- The value of a hex digit given as a character. -/
def charValue? (c : Char) : Option Nat :=
  (utf8 [c]).head?.bind digitValue?

/-- Reads hex digits with or without a mark and with nothing around them. -/
def parseExact (cs : List Char) : Except HexError Bytes :=
  decode (utf8 (unmark cs))

/-- Reads a user's text: blanks around it are dropped, then one mark, and the
rest are digits. -/
def parse (s : String) : Except HexError Bytes :=
  parseExact (Text.trimChars s.toList)

end Hex

end RouterCalldata
