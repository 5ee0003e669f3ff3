import RouterCalldata.Bytes.Hex
import RouterCalldata.Number.Literal
import RouterCalldata.Number.Nearest

/-!
# Scalars without quotes

In an indented document a scalar without quotes has no mark of its type.  A
reader that asks for a text takes it as it is written; a reader that asks for a
number or a truth value takes it by its spelling; and where nobody asks, its
spelling alone decides what it is.

Whole numbers may stand in base 10, 16, 8 or 2, and a number that is padded
with zeros is a text.  A whole number that needs more than 64 bits but at most
128 is too wide to be a number here and yet is no text, whereas one that is
wider still is a double.

## Main definitions

* `isNull`, `bool?`, `nat?`, `double?`: scalars by the type that is asked for;
* `Kind`, `kind`: what a scalar is by its spelling alone.
-/

namespace RouterCalldata.Plain

/-- Whether the scalar says that there is no value. -/
def isNull (s : String) : Bool := s ∈ ["", "~", "null", "Null", "NULL"]

/-- A truth value. -/
def bool? (s : String) : Option Bool :=
  if s ∈ ["true", "True", "TRUE"] then some true
  else if s ∈ ["false", "False", "FALSE"] then some false
  else none

/-! ## Whole numbers -/

/-- The number that digits in base `base` stand for. -/
def digits? (base : Nat) (cs : List Char) : Option Nat :=
  if cs.isEmpty then none
  else cs.foldlM
    (fun n c => do
      let d ← Hex.charValue? c
      if d < base then some (base * n + d) else none) 0

/-- A whole number without a sign: decimal and not padded, or in base 16, 8 or 2
behind `0x`, `0o` or `0b`. -/
def magnitude? : List Char → Option Nat
  | '0' :: 'x' :: rest => digits? 16 rest
  | '0' :: 'o' :: rest => digits? 8 rest
  | '0' :: 'b' :: rest => digits? 2 rest
  | ['0'] => some 0
  | '0' :: _ => none
  | cs => digits? 10 cs

/-- A whole number of at most 128 bits: whether a minus sign stands in front of
it, and its magnitude. -/
def whole? (s : String) : Option (Bool × Nat) := do
  let (minus, cs) := match s.toList with
    | '-' :: rest => (true, rest)
    | '+' :: rest => (false, rest)
    | cs => (false, cs)
  let n ← magnitude? cs
  if n < Nat.pow 2 127 || (n == Nat.pow 2 127 && minus) || (n < Nat.pow 2 128 && !minus) then
    some (minus, n)
  else none

/-- A whole number of 64 bits without a minus sign. -/
def nat? (s : String) : Option Nat :=
  match whole? s with
  | some (false, n) => if n < Nat.pow 2 64 then some n else none
  | _ => none

/-! ## Doubles -/

/-- The decimal that digits with a point and an exponent stand for.  Digits may
be missing on either side of the point, but not on both. -/
def decimal? (cs : List Char) : Option Decimal := do
  let (whole, cs) := Literal.spanDigits cs
  let (fraction, cs) := match cs with
    | '.' :: rest => Literal.spanDigits rest
    | cs => ([], cs)
  if whole = [] ∧ fraction = [] then failure
  let exponent : Int := match ← Literal.exponent? cs with
    | some (true, ds) => -(Literal.ofDigits ds : Int)
    | some (false, ds) => Literal.ofDigits ds
    | none => 0
  return ⟨Literal.ofDigits (whole ++ fraction), exponent - fraction.length⟩

/-- The double that a text without a sign stands for. -/
def unsignedDouble? (cs : List Char) : Option Double :=
  if String.ofList cs ∈ [".inf", ".Inf", ".INF"] then some .infinity
  else (decimal? cs).bind Decimal.nearest?

/-- A double. -/
def double? (s : String) : Option Double :=
  if s ∈ [".nan", ".NaN", ".NAN"] then some .nan
  else match s.toList with
    | '-' :: rest => (unsignedDouble? rest).map Double.neg
    | '+' :: rest => unsignedDouble? rest
    | cs => unsignedDouble? cs

/-! ## Kinds -/

/-- What a scalar is by its spelling. -/
inductive Kind
  | null
  | bool (b : Bool)
  | number (n : Numeral)
  /-- A whole number of more than 64 bits and at most 128. -/
  | wide
  | text
  deriving DecidableEq, Repr

/-- Whether digits are padded with zeros. -/
def isPadded (s : String) : Bool :=
  let cs := match s.toList with
    | '-' :: rest => rest
    | '+' :: rest => rest
    | cs => cs
  match cs with
  | '0' :: d :: rest => (d :: rest).all Char.isDigit
  | _ => false

/-- What a scalar is by its spelling. -/
def kind (s : String) : Kind :=
  if isNull s then .null
  else match bool? s, whole? s with
    | some b, _ => .bool b
    | none, some (false, n) => if n < Nat.pow 2 64 then .number (.nat n) else .wide
    | none, some (true, n) =>
        if n = 0 then .number (.nat 0)
        else if n ≤ Nat.pow 2 63 then .number (.negative n)
        else .wide
    | none, none =>
        if isPadded s then .text
        else match double? s with
          | some x => .number (.double x)
          | none => .text

end RouterCalldata.Plain
