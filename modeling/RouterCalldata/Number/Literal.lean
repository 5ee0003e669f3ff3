import RouterCalldata.Number.Double

/-!
# Number literals

A number literal is an optional minus sign, digits without a leading zero, then
a fraction and an exponent where they are given.

A literal with a fraction or an exponent is a double.  Of its digits as many
are kept as make a number of 64 bits; that number is rounded to a double and
then multiplied or divided once by a power of ten, so the last bit may differ
from the double nearest to the literal.

## Main definitions

* `Numeral`: the numbers that literals denote;
* `Literal`: the parts of a literal;
* `Literal.ofChars?`: splits a literal into its parts;
* `Literal.value?`: the number a literal denotes, if it is in range.
-/

namespace RouterCalldata

/-- A number as a document holds it. -/
inductive Numeral
  /-- A whole number of at most 64 bits. -/
  | nat (n : Nat)
  /-- A whole number below zero, given by its magnitude. -/
  | negative (magnitude : Nat)
  | double (x : Double)
  deriving DecidableEq, Repr

/-- The parts of a number literal. -/
structure Literal where
  minus : Bool
  whole : List Char
  /-- The digits behind the point. -/
  fraction : Option (List Char)
  /-- Sign and digits of the exponent. -/
  exponent : Option (Bool × List Char)
  deriving DecidableEq, Repr

namespace Literal

/-- The digits at the front, and what follows them. -/
def spanDigits (cs : List Char) : List Char × List Char :=
  (cs.takeWhile Char.isDigit, cs.dropWhile Char.isDigit)

/-- The digits behind a point, if one comes next. -/
def fraction? : List Char → Option (Option (List Char) × List Char)
  | '.' :: rest =>
      match spanDigits rest with
      | ([], _) => none
      | (ds, rest) => some (some ds, rest)
  | cs => some (none, cs)

/-- The sign in front of an exponent's digits, true for a minus. -/
def exponentSign : List Char → Bool × List Char
  | '-' :: rest => (true, rest)
  | '+' :: rest => (false, rest)
  | cs => (false, cs)

/-- The exponent that ends a literal, if there is one. -/
def exponent? : List Char → Option (Option (Bool × List Char))
  | [] => some none
  | c :: rest =>
      if c = 'e' ∨ c = 'E' then
        let (minus, ds) := exponentSign rest
        if ds ≠ [] ∧ ds.all Char.isDigit then some (some (minus, ds)) else none
      else none

/-- Splits a literal into its parts. -/
def ofChars? (cs : List Char) : Option Literal := do
  let (minus, cs) := match cs with
    | '-' :: rest => (true, rest)
    | cs => (false, cs)
  let (whole, cs) := spanDigits cs
  if whole = [] ∨ (whole.length ≠ 1 ∧ whole.head? = some '0') then failure
  let (fraction, cs) ← fraction? cs
  let exponent ← exponent? cs
  return { minus, whole, fraction, exponent }

/-- The value of a digit. -/
def digit (c : Char) : Nat := c.toNat - 0x30

/-- The number that digits stand for. -/
def ofDigits (ds : List Char) : Nat :=
  ds.foldl (fun n c => 10 * n + digit c) 0

/-- Appends digits to a number for as long as it stays within 64 bits, and
gives the digits left over. -/
def append (n : Nat) : List Char → Nat × List Char
  | [] => (n, [])
  | c :: rest =>
      let m := 10 * n + digit c
      if m < Nat.pow 2 64 then append m rest else (n, c :: rest)

/-- The double `f · 10 ^ e`, scaled by at most `10 ^ 308` at a time, if it is
finite. -/
def scale (f : Float) (e : Int) : Option Float :=
  if e.natAbs ≤ 308 then
    if 0 ≤ e then
      let x := f * Float.ofScientific 1 false e.natAbs
      if x.isInf then none else some x
    else some (f / Float.ofScientific 1 false e.natAbs)
  else if f == 0 then some f
  else if 0 ≤ e then none
  else scale (f / Float.ofScientific 1 false 308) (e + 308)
termination_by e.natAbs

/-- The magnitude of a literal that is a double, if it is finite. -/
def magnitude? (l : Literal) : Option Float :=
  let (kept, dropped) := append 0 l.whole
  let fraction := l.fraction.getD []
  let (kept, ignored) := append kept fraction
  -- Each dropped digit stands for a power of ten, each digit behind the point takes one away.
  let shift : Int := (dropped.length : Int) - ((fraction.length - ignored.length : Nat) : Int)
  let start := (UInt64.ofNat kept).toFloat
  match l.exponent with
  | none => scale start shift
  | some (minus, ds) =>
      let e := ofDigits ds
      if e < Nat.pow 2 31 then scale start (if minus then shift - e else shift + e)
      else if kept = 0 ∨ minus then some 0 else none

/-- The number a literal denotes.  A whole number of more than 64 bits is a
double, and so is minus zero. -/
def value? (l : Literal) : Option Numeral :=
  let asDouble := l.magnitude?.map fun f =>
    let x := Double.ofFloat f
    Numeral.double (if l.minus then x.neg else x)
  match l.fraction, l.exponent, append 0 l.whole with
  | none, none, (n, []) =>
      if !l.minus then some (.nat n)
      else if n = 0 ∨ Nat.pow 2 63 < n then asDouble
      else some (.negative n)
  | _, _, _ => asDouble

end Literal

end RouterCalldata
