import RouterCalldata.Method.Info
import RouterCalldata.Record.Layout

/-!
# The methods of the newer router

Two of the methods take an array of calls instead of fields.

## Main definitions

* `V3Method`: the nine methods, with `info`, their table entries;
* `V3Method.ofSelector?`: looks a selector up;
* `V3Method.headWord?`: the word that holds the offset of the array of calls;
* `V3Method.layout`: the shape of a method's parameter block.
-/

namespace RouterCalldata

/-- The methods of the newer router. -/
inductive V3Method
  | exactInputSingle
  | exactInput
  | exactOutputSingle
  | exactOutput
  | multicall
  | multicallWithValue
  | unwrapWETH9
  | sweepToken
  | refundETH
  deriving DecidableEq, Repr

namespace V3Method

/-- All methods in table order. -/
def all : List V3Method :=
  [exactInputSingle, exactInput, exactOutputSingle, exactOutput, multicall, multicallWithValue,
    unwrapWETH9, sweepToken, refundETH]

/-- The table entry of a method. -/
def info : V3Method → MethodInfo
  | exactInputSingle =>
      ⟨⟨0x41, 0x4b, 0xf3, 0x89⟩, "ExactInputSingle",
        "exactInputSingle((address,address,uint24,address,uint256,uint256,uint256,uint160))",
        false, false⟩
  | exactInput =>
      ⟨⟨0xc0, 0x4b, 0x8d, 0x59⟩, "ExactInput",
        "exactInput((bytes,address,uint256,uint256,uint256))", false, false⟩
  | exactOutputSingle =>
      ⟨⟨0xdb, 0x3e, 0x21, 0x98⟩, "ExactOutputSingle",
        ("exactOutputSingle" ++
          "((address,address,uint24,address,uint256,uint256,uint256,uint160))"), false, false⟩
  | exactOutput =>
      ⟨⟨0xf2, 0x8c, 0x04, 0x98⟩, "ExactOutput",
        "exactOutput((bytes,address,uint256,uint256,uint256))", false, false⟩
  | multicall =>
      ⟨⟨0xac, 0x96, 0x50, 0xd8⟩, "Multicall",
        "multicall(bytes[])", false, false⟩
  | multicallWithValue =>
      ⟨⟨0x5a, 0xe4, 0x01, 0xdc⟩, "MulticallWithValue",
        "multicall(uint256,bytes[])", false, false⟩
  | unwrapWETH9 =>
      ⟨⟨0x49, 0x40, 0x4b, 0x7c⟩, "UnwrapWETH9",
        "unwrapWETH9(uint256,address)", false, true⟩
  | sweepToken =>
      ⟨⟨0xdf, 0x2a, 0xb5, 0xbb⟩, "SweepToken",
        "sweepToken(address,uint256,address)", false, false⟩
  | refundETH =>
      ⟨⟨0x12, 0x21, 0x0e, 0x8a⟩, "RefundETH",
        "refundETH()", false, true⟩

/-- The selector of a method. -/
def selector (m : V3Method) : Selector := m.info.selector

/-- The name of a method. -/
def name (m : V3Method) : String := m.info.name

/-- The method that has a given selector. -/
def ofSelector? (s : Selector) : Option V3Method :=
  all.find? (·.selector == s)

@[simp] theorem ofSelector?_selector (m : V3Method) : ofSelector? m.selector = some m := by
  cases m <;> decide

/-- The word that holds the offset of the array of calls, for the methods that
take one. -/
def headWord? : V3Method → Option Nat
  | multicall => some 0
  | multicallWithValue => some 1
  | _ => none

/-! ## Parameter blocks -/

/-- The shape of a method's parameter block.  A single-hop method has its
tuple in line; the methods that fix the bought amount report the most that may
be sold as the sold amount too. -/
def layout : V3Method → Layout
  | exactInputSingle =>
      .fixed [(.tokenPathFrom, .address 0), (.tokenPathTo, .address 1), (.recipient, .address 3),
        (.amountIn, .uint 5), (.amountOutMin, .uint 6)]
  | exactOutputSingle =>
      .fixed [(.amountInMax, .uint 6), (.tokenPathFrom, .address 0), (.tokenPathTo, .address 1),
        (.recipient, .address 3), (.amountOut, .uint 5), (.amountIn, .uint 6)]
  | exactInput =>
      .packedPath .inputFirst
        [(.recipient, .address 1), (.amountIn, .uint 3), (.amountOutMin, .uint 4)]
  | exactOutput =>
      .packedPath .outputFirst
        [(.amountInMax, .uint 4), (.recipient, .address 1), (.amountOut, .uint 3),
          (.amountIn, .uint 4)]
  | unwrapWETH9 => .fixed [(.amountOutMin, .uint 0), (.recipient, .address 1)]
  | sweepToken =>
      .fixed [(.tokenPathTo, .address 0), (.amountOutMin, .uint 1), (.recipient, .address 2)]
  | refundETH => .fixed []
  | multicall
  | multicallWithValue => .calls

/-- The fields of a method's parameter block. -/
def decode (m : V3Method) (params : Bytes) : Decoded SwapFields :=
  m.layout.decode m.name params

end V3Method

end RouterCalldata
