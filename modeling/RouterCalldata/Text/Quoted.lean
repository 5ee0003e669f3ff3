/-!
# A character shown in quotes

An error message shows an offending byte as the character of that code point
between single quotes.  The quote itself, the backslash and the characters
that print nothing are written as escapes.

## Main definitions

* `prints`: whether a code point below 256 shows as itself;
* `quoteByte`: the quoted form of a byte.
-/

namespace RouterCalldata.Text

/-- Lowercase hex digits of a number, without leading zeros. -/
def hexNumeral (n : Nat) : String :=
  String.ofList (Nat.toDigits 16 n)

/-- Whether the character of a code point below 256 shows as itself: neither a
control character, nor the no-break space, nor the soft hyphen. -/
def prints (n : Nat) : Bool :=
  (0x20 ≤ n && n < 0x7f) || (0xa0 < n && n != 0xad)

/-- The character of the code point `b` between single quotes, escaped where it
would not show. -/
def quoteByte (b : UInt8) : String :=
  let n := b.toNat
  let shown :=
    if n = 0 then "\\0"
    else if n = 9 then "\\t"
    else if n = 10 then "\\n"
    else if n = 13 then "\\r"
    else if n = 0x27 then "\\'"
    else if n = 0x5c then "\\\\"
    else if prints n then String.singleton (Char.ofNat n)
    else "\\u\x7b" ++ hexNumeral n ++ "\x7d"
  "'" ++ shown ++ "'"

end RouterCalldata.Text
