import RouterCalldata.Method.Info
import RouterCalldata.Record.Layout

/-!
# The methods of the older router

## Main definitions

* `V2Method`: the seventeen methods, with `info`, their table entries;
* `V2Method.ofSelector?`: looks a selector up;
* `V2Method.layout`: the shape of a method's parameter block.
-/

namespace RouterCalldata

/-- The methods of the older router. -/
inductive V2Method
  | swapExactTokensForTokens
  | swapTokensForExactTokens
  | swapExactETHForTokens
  | swapTokensForExactETH
  | swapExactTokensForETH
  | swapETHForExactTokens
  | swapExactTokensForTokensSupportingFee
  | swapExactETHForTokensSupportingFee
  | swapExactTokensForETHSupportingFee
  | addLiquidity
  | addLiquidityETH
  | removeLiquidity
  | removeLiquidityETH
  | removeLiquidityETHWithPermit
  | removeLiquidityETHWithPermitSupportingFee
  | removeLiquidityETHSupportingFee
  | removeLiquidityWithPermit
  deriving DecidableEq, Repr

namespace V2Method

/-- All methods in table order. -/
def all : List V2Method :=
  [swapExactTokensForTokens, swapTokensForExactTokens, swapExactETHForTokens,
    swapTokensForExactETH, swapExactTokensForETH, swapETHForExactTokens,
    swapExactTokensForTokensSupportingFee, swapExactETHForTokensSupportingFee,
    swapExactTokensForETHSupportingFee, addLiquidity, addLiquidityETH, removeLiquidity,
    removeLiquidityETH, removeLiquidityETHWithPermit, removeLiquidityETHWithPermitSupportingFee,
    removeLiquidityETHSupportingFee, removeLiquidityWithPermit]

/-- The table entry of a method. -/
def info : V2Method → MethodInfo
  | swapExactTokensForTokens =>
      ⟨⟨0x38, 0xed, 0x17, 0x39⟩, "SwapExactTokensForTokens",
        "swapExactTokensForTokens(uint256,uint256,address[],address,uint256)", false, false⟩
  | swapTokensForExactTokens =>
      ⟨⟨0x88, 0x03, 0xdb, 0xee⟩, "SwapTokensForExactTokens",
        "swapTokensForExactTokens(uint256,uint256,address[],address,uint256)", false, false⟩
  | swapExactETHForTokens =>
      ⟨⟨0x7f, 0xf3, 0x6a, 0xb5⟩, "SwapExactETHForTokens",
        "swapExactETHForTokens(uint256,address[],address,uint256)", true, false⟩
  | swapTokensForExactETH =>
      ⟨⟨0x4a, 0x25, 0xd9, 0x4a⟩, "SwapTokensForExactETH",
        "swapTokensForExactETH(uint256,uint256,address[],address,uint256)", false, true⟩
  | swapExactTokensForETH =>
      ⟨⟨0x18, 0xcb, 0xaf, 0xe5⟩, "SwapExactTokensForETH",
        "swapExactTokensForETH(uint256,uint256,address[],address,uint256)", false, true⟩
  | swapETHForExactTokens =>
      ⟨⟨0xfb, 0x3b, 0xdb, 0x41⟩, "SwapETHForExactTokens",
        "swapETHForExactTokens(uint256,address[],address,uint256)", true, false⟩
  | swapExactTokensForTokensSupportingFee =>
      ⟨⟨0x5c, 0x11, 0xd7, 0x95⟩, "SwapExactTokensForTokensSupportingFeeOnTransferTokens",
        ("swapExactTokensForTokensSupportingFeeOnTransferTokens" ++
          "(uint256,uint256,address[],address,uint256)"), false, false⟩
  | swapExactETHForTokensSupportingFee =>
      ⟨⟨0xb6, 0xf9, 0xde, 0x95⟩, "SwapExactETHForTokensSupportingFeeOnTransferTokens",
        ("swapExactETHForTokensSupportingFeeOnTransferTokens" ++
          "(uint256,address[],address,uint256)"), true, false⟩
  | swapExactTokensForETHSupportingFee =>
      ⟨⟨0x79, 0x1a, 0xc9, 0x47⟩, "SwapExactTokensForETHSupportingFeeOnTransferTokens",
        ("swapExactTokensForETHSupportingFeeOnTransferTokens" ++
          "(uint256,uint256,address[],address,uint256)"), false, true⟩
  | addLiquidity =>
      ⟨⟨0xe8, 0xe3, 0x37, 0x00⟩, "AddLiquidity",
        "addLiquidity(address,address,uint256,uint256,uint256,uint256,address,uint256)",
        false, false⟩
  | addLiquidityETH =>
      ⟨⟨0xf3, 0x05, 0xd7, 0x19⟩, "AddLiquidityETH",
        "addLiquidityETH(address,uint256,uint256,uint256,address,uint256)", true, false⟩
  | removeLiquidity =>
      ⟨⟨0xba, 0xa2, 0xab, 0xde⟩, "RemoveLiquidity",
        "removeLiquidity(address,address,uint256,uint256,uint256,address,uint256)", false, false⟩
  | removeLiquidityETH =>
      ⟨⟨0x02, 0x75, 0x1c, 0xec⟩, "RemoveLiquidityETH",
        "removeLiquidityETH(address,uint256,uint256,uint256,address,uint256)", true, true⟩
  | removeLiquidityETHWithPermit =>
      ⟨⟨0xde, 0xd9, 0x38, 0x2a⟩, "RemoveLiquidityETHWithPermit",
        ("removeLiquidityETHWithPermit" ++
          "(address,uint256,uint256,uint256,address,uint256,bool,uint8,bytes32,bytes32)"),
        true, true⟩
  | removeLiquidityETHWithPermitSupportingFee =>
      ⟨⟨0x5b, 0x0d, 0x59, 0x84⟩, "RemoveLiquidityETHWithPermitSupportingFeeOnTransferTokens",
        ("removeLiquidityETHWithPermitSupportingFeeOnTransferTokens" ++
          "(address,uint256,uint256,uint256,address,uint256,bool,uint8,bytes32,bytes32)"),
        false, false⟩
  | removeLiquidityETHSupportingFee =>
      ⟨⟨0xaf, 0x29, 0x79, 0xeb⟩, "RemoveLiquidityETHSupportingFeeOnTransferTokens",
        ("removeLiquidityETHSupportingFeeOnTransferTokens" ++
          "(address,uint256,uint256,uint256,address,uint256)"), false, true⟩
  | removeLiquidityWithPermit =>
      ⟨⟨0x21, 0x95, 0x99, 0x5c⟩, "RemoveLiquidityWithPermit",
        ("removeLiquidityWithPermit" ++
          "(address,address,uint256,uint256,uint256,address,uint256,bool,uint8,bytes32,bytes32)"),
        false, false⟩

/-- The selector of a method. -/
def selector (m : V2Method) : Selector := m.info.selector

/-- The name of a method. -/
def name (m : V2Method) : String := m.info.name

/-- The method that has a given selector. -/
def ofSelector? (s : Selector) : Option V2Method :=
  all.find? (·.selector == s)

@[simp] theorem ofSelector?_selector (m : V2Method) : ofSelector? m.selector = some m := by
  cases m <;> decide

/-! ## Parameter blocks -/

/-- `swap*(amountIn, amountOutMin, path, to, deadline)`. -/
def exactTokensIn : Layout :=
  .tokenPath 2 [(.amountIn, .uint 0), (.amountOutMin, .uint 1), (.recipient, .address 3)]

/-- `swap*(amountOut, amountInMax, path, to, deadline)`. -/
def exactTokensOut : Layout :=
  .tokenPath 2 [(.amountOut, .uint 0), (.amountInMax, .uint 1), (.recipient, .address 3)]

/-- `swap*(amountOutMin, path, to, deadline)`, the amount sold being the value
of the transaction. -/
def exactEthIn : Layout :=
  .tokenPath 1 [(.amountOutMin, .uint 0), (.recipient, .address 2)]

/-- `swap*(amountOut, path, to, deadline)`, at most the value of the
transaction being sold. -/
def ethForExact : Layout :=
  .tokenPath 1 [(.amountOut, .uint 0), (.recipient, .address 2)]

/-- `removeLiquidity*(tokenA, tokenB, liquidity, amountAMin, amountBMin, to, …)`. -/
def removePair : Layout :=
  .fixed [(.tokenA, .address 0), (.tokenB, .address 1), (.liquidity, .uint 2),
    (.amountAMin, .uint 3), (.amountBMin, .uint 4), (.recipient, .address 5)]

/-- `removeLiquidityETH*(token, liquidity, amountTokenMin, amountETHMin, to, …)`.
Only the low ten bytes of the liquidity word are read. -/
def removeEth : Layout :=
  .fixed [(.tokenA, .address 0), (.liquidity, .uintRange 54 10), (.amountTokenMin, .uint 2),
    (.amountEthMin, .uint 3), (.recipient, .address 4)]

/-- The shape of a method's parameter block. -/
def layout : V2Method → Layout
  | swapExactTokensForTokens
  | swapExactTokensForETH
  | swapExactTokensForTokensSupportingFee
  | swapExactTokensForETHSupportingFee => exactTokensIn
  | swapTokensForExactTokens
  | swapTokensForExactETH => exactTokensOut
  | swapExactETHForTokens
  | swapExactETHForTokensSupportingFee => exactEthIn
  | swapETHForExactTokens => ethForExact
  | addLiquidity =>
      .fixed [(.tokenA, .address 0), (.tokenB, .address 1), (.amountADesired, .uint 2),
        (.amountBDesired, .uint 3), (.amountAMin, .uint 4), (.amountBMin, .uint 5),
        (.recipient, .address 6)]
  | addLiquidityETH =>
      .fixed [(.tokenA, .address 0), (.amountTokenDesired, .uint 1), (.amountTokenMin, .uint 2),
        (.amountEthMin, .uint 3), (.recipient, .address 4)]
  | removeLiquidity
  | removeLiquidityWithPermit => removePair
  | removeLiquidityETH
  | removeLiquidityETHWithPermit
  | removeLiquidityETHWithPermitSupportingFee
  | removeLiquidityETHSupportingFee => removeEth

/-- The fields of a method's parameter block. -/
def decode (m : V2Method) (params : Bytes) : Decoded SwapFields :=
  m.layout.decode m.name params

end V2Method

end RouterCalldata
