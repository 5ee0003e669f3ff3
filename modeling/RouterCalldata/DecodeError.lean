import RouterCalldata.Selector
import RouterCalldata.Version

/-!
# Why a call does not decode

Every refusal of the library is one of the causes below.  Each constructor
holds the numbers that its message shows, so that a statement can speak of the
cause and only `DecodeError.message` of the wording.

`DecodeError.fault` stands apart.  It is the outcome of an addition, a
subtraction or a cut that runs out of its range at a place where the decoder
relies on an earlier check instead of testing again.

## Main definitions

* `BoundsCause`, `LayoutCause`, `Fault`: the causes of three kinds of refusal;
* `DecodeError`: all refusals;
* `DecodeError.kind`, `DecodeError.message`: the label and the text of one.
-/

namespace RouterCalldata

/-- Positions that no buffer can hold. -/
inductive BoundsCause
  /-- The end of the range leaves 64 bits. -/
  | range (start len : Nat)
  /-- An integer of more than one word is asked for. -/
  | wideInteger (len : Nat)
  /-- The word at `offset` holds a number of more than 64 bits. -/
  | wideOffset (offset : Nat)
  /-- The end of an address array leaves 64 bits. -/
  | path (len offset : Nat)
  /-- The start of a packed path leaves 64 bits. -/
  | packedPath (offset : Nat)
  deriving DecidableEq, Repr

/-- Readable numbers that describe no valid layout. -/
inductive LayoutCause
  /-- A swap path of fewer than two tokens. -/
  | shortPath (len : Nat)
  /-- A packed path whose length fits no number of pools. -/
  | packedPathLength (len : Nat)
  /-- The array of calls does not follow the head words. -/
  | arrayOffset (got expected : Nat)
  /-- The region of an element ends before it starts or past the buffer. -/
  | elementRegion (index : Nat)
  /-- An element declares more bytes than its region holds. -/
  | elementLength (index declared held : Nat)
  /-- A multicall was handed to the reader of plain calls. -/
  | nestedOnly (method : String)
  /-- Multicalls are nested too deeply. -/
  | nestingDepth (depth limit : Nat)
  deriving DecidableEq, Repr

/-- Steps that leave their range where no check guards them. -/
inductive Fault
  /-- A sum or product of more than 64 bits, or a difference below zero. -/
  | overflow
  /-- A cut outside the buffer. -/
  | window
  deriving DecidableEq, Repr

/-- Why a call, or a text that names one, does not decode. -/
inductive DecodeError
  | unknownSelector (selector : Selector) (version : Version)
  | truncated (offset needed available : Nat)
  | outOfBounds (cause : BoundsCause)
  | malformed (cause : LayoutCause)
  | invalidHex (cause : HexError)
  | unknownVersion (input : String)
  | fault (cause : Fault)
  deriving DecidableEq, Repr

namespace BoundsCause

/-- The reason as it is shown to the user. -/
def reason : BoundsCause → String
  | range start len => s!"range {start}+{len} overflows"
  | wideInteger len => s!"integer slice of {len} bytes exceeds 32"
  | wideOffset offset => s!"offset word at {offset} does not fit in 64 bits"
  | path len offset => s!"path of {len} entries at offset {offset} overflows"
  | packedPath offset => s!"path offset {offset} overflows"

end BoundsCause

namespace LayoutCause

/-- The reason as it is shown to the user. -/
def reason : LayoutCause → String
  | shortPath len => s!"swap path needs at least 2 tokens, got {len}"
  | packedPathLength len => s!"packed path length {len} is not 20 + 23k (k >= 1)"
  | arrayOffset got expected => s!"multicall array offset is {got}, expected {expected}"
  | elementRegion index =>
      s!"multicall element {index} region is out of order or past the end"
  | elementLength index declared held =>
      s!"multicall element {index} declares {declared} bytes, region holds {held}"
  | nestedOnly method => s!"{method} must be decoded as a multicall"
  | nestingDepth depth limit =>
      s!"multicall nesting depth {depth} exceeds the limit of {limit}"

end LayoutCause

namespace Fault

/-- The reason as it is shown to the user. -/
def reason : Fault → String
  | overflow => "arithmetic left 64 bits"
  | window => "cut outside the buffer"

end Fault

namespace DecodeError

/-- The stable label of the kind of refusal. -/
def kind : DecodeError → String
  | unknownSelector .. => "unknown_selector"
  | truncated .. => "truncated"
  | outOfBounds .. => "out_of_bounds"
  | malformed .. => "malformed_encoding"
  | invalidHex .. => "invalid_hex"
  | unknownVersion .. => "unknown_version"
  | fault .. => "fault"

/-- The text shown to the user. -/
def message : DecodeError → String
  | unknownSelector selector version => s!"Unknown {version.name} selector 0x{selector.hex}"
  | truncated offset needed available =>
      s!"Calldata truncated: need {needed} bytes at offset {offset}, have {available}"
  | outOfBounds cause => "Out of bounds: " ++ cause.reason
  | malformed cause => "Malformed ABI encoding: " ++ cause.reason
  | invalidHex cause => "Invalid hex input: " ++ cause.reason
  | unknownVersion input => s!"Unknown protocol version '{input}' (expected V2 or V3)"
  | fault cause => "Internal fault: " ++ cause.reason

end DecodeError

/-- What a reading of calldata gives. -/
abbrev Decoded (α : Type) := Except DecodeError α

namespace Hex

/-- Reads a user's hex text into bytes. -/
def read (s : String) : Decoded Bytes :=
  (parse s).mapError .invalidHex

end Hex

namespace Selector

/-- Reads a user's hex text into a selector. -/
def read (s : String) : Decoded Selector :=
  (parse s).mapError .invalidHex

end Selector

namespace Version

/-- Reads a user's version text.  The refusal shows it without the blanks
around it. -/
def read (s : String) : Decoded Version :=
  match ofText? s with
  | some version => .ok version
  | none => .error (.unknownVersion (Text.trim s))

end Version

end RouterCalldata
